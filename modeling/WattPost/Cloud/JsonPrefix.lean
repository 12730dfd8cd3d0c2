import WattPost.Cloud.JsonLoads

/-! What `json.loads` takes for a value does not depend on what follows, so that an object whose
text is cut off is no value at all. -/
namespace WattPost.Cloud.JsonText

/-! ### Numbers -/

theorem scanSign_sound {cs sign rest : List Char} (h : scanSign cs = (sign, rest)) :
    cs = sign ++ rest ∧ (sign = [] ∨ sign = ['-']) := by
  unfold scanSign at h
  split at h
  · cases h
    exact ⟨rfl, Or.inr rfl⟩
  · cases h
    exact ⟨rfl, Or.inl rfl⟩

theorem span_sound {cs digits rest : List Char} (h : cs.span Char.isDigit = (digits, rest)) :
    cs = digits ++ rest ∧ ∀ c ∈ digits, c.isDigit = true := by
  rw [List.span_eq_takeWhile_dropWhile] at h
  cases h
  exact ⟨List.takeWhile_append_dropWhile.symm, fun c hc => List.mem_takeWhile_imp hc⟩

theorem scanWhole_sound {cs whole rest : List Char} (h : scanWhole cs = (whole, rest))
    (hSome : whole ≠ []) : cs = whole ++ rest ∧
      (whole = ['0'] ∨ whole ≠ [] ∧ whole.head? ≠ some '0' ∧ ∀ c ∈ whole, c.isDigit = true) := by
  unfold scanWhole at h
  split at h
  · cases h
    exact ⟨rfl, Or.inl rfl⟩
  · next hZero =>
    obtain ⟨rfl, hDigits⟩ := span_sound h
    refine ⟨rfl, Or.inr ⟨hSome, fun hHead => ?_, hDigits⟩⟩
    cases whole with
    | nil => exact hSome rfl
    | cons c whole =>
        obtain rfl := Option.some.inj hHead
        exact hZero _ rfl

theorem scanFraction_sound {cs fraction rest : List Char}
    (h : scanFraction cs = (fraction, rest)) : cs = fraction ++ rest ∧
      (fraction = [] ∨ ∃ digits, digits ≠ [] ∧ (∀ c ∈ digits, c.isDigit = true) ∧
        fraction = '.' :: digits) := by
  unfold scanFraction at h
  split at h
  · next tail =>
    obtain ⟨⟨digits, rest'⟩, hSpan⟩ : ∃ span, tail.span Char.isDigit = span := ⟨_, rfl⟩
    rw [hSpan] at h
    dsimp only at h
    obtain ⟨rfl, hDigits⟩ := span_sound hSpan
    split_ifs at h with hNone
    · cases h
      exact ⟨rfl, Or.inl rfl⟩
    · cases h
      exact ⟨rfl, Or.inr ⟨digits, hNone, hDigits, rfl⟩⟩
  · cases h
    exact ⟨rfl, Or.inl rfl⟩

theorem scanMark_sound {cs mark rest : List Char} (h : scanMark cs = (mark, rest)) :
    cs = mark ++ rest ∧ (mark = [] ∨ mark = ['+'] ∨ mark = ['-']) := by
  unfold scanMark at h
  split at h
  · cases h
    exact ⟨rfl, Or.inr (Or.inl rfl)⟩
  · cases h
    exact ⟨rfl, Or.inr (Or.inr rfl)⟩
  · cases h
    exact ⟨rfl, Or.inl rfl⟩

theorem scanExponent_sound {cs exponent rest : List Char}
    (h : scanExponent cs = (exponent, rest)) : cs = exponent ++ rest ∧
      (exponent = [] ∨ ∃ e mark digits, (e = 'e' ∨ e = 'E') ∧
        (mark = [] ∨ mark = ['+'] ∨ mark = ['-']) ∧ digits ≠ [] ∧
        (∀ c ∈ digits, c.isDigit = true) ∧ exponent = e :: mark ++ digits) := by
  cases cs with
  | nil =>
      cases h
      exact ⟨rfl, Or.inl rfl⟩
  | cons e tail =>
      unfold scanExponent at h
      obtain ⟨⟨mark, tail'⟩, hMark⟩ : ∃ x, scanMark tail = x := ⟨_, rfl⟩
      obtain ⟨⟨digits, rest'⟩, hSpan⟩ : ∃ span, tail'.span Char.isDigit = span := ⟨_, rfl⟩
      dsimp only at h
      rw [hMark] at h
      dsimp only at h
      rw [hSpan] at h
      dsimp only at h
      obtain ⟨hTail, hMarks⟩ := scanMark_sound hMark
      obtain ⟨rfl, hDigits⟩ := span_sound hSpan
      split_ifs at h with hE hNone
      · cases h
        exact ⟨rfl, Or.inl rfl⟩
      · cases h
        refine ⟨?_, Or.inr ⟨e, mark, digits, hE, hMarks, hNone, hDigits, rfl⟩⟩
        rw [hTail]
        simp
      · cases h
        exact ⟨rfl, Or.inl rfl⟩

variable {d : Decoder}

/-- What is read as a number is a numeral. -/
theorem scanNumber_sound {cs rest : List Char} {j : Json}
    (h : d.scanNumber cs = some (j, rest)) :
    ∃ m : Numeral, cs = m.text ++ rest ∧
      d.number m.sign m.whole m.fraction m.exponent = some j := by
  unfold Decoder.scanNumber at h
  obtain ⟨⟨sign, r₁⟩, hSign⟩ : ∃ x, scanSign cs = x := ⟨_, rfl⟩
  obtain ⟨⟨whole, r₂⟩, hWhole⟩ : ∃ x, scanWhole r₁ = x := ⟨_, rfl⟩
  obtain ⟨⟨fraction, r₃⟩, hFraction⟩ : ∃ x, scanFraction r₂ = x := ⟨_, rfl⟩
  obtain ⟨⟨exponent, r₄⟩, hExponent⟩ : ∃ x, scanExponent r₃ = x := ⟨_, rfl⟩
  rw [hSign] at h
  dsimp only at h
  rw [hWhole] at h
  dsimp only at h
  rw [hFraction] at h
  dsimp only at h
  rw [hExponent] at h
  dsimp only at h
  obtain ⟨found, hFound, hEq⟩ := Option.map_eq_some_iff.mp h
  cases hEq
  have hSome : whole ≠ [] := by
    rintro rfl
    cases hFound
  obtain ⟨rfl, isSign⟩ := scanSign_sound hSign
  obtain ⟨rfl, isWhole⟩ := scanWhole_sound hWhole hSome
  obtain ⟨rfl, isFraction⟩ := scanFraction_sound hFraction
  obtain ⟨rfl, isExponent⟩ := scanExponent_sound hExponent
  refine ⟨⟨sign, whole, fraction, exponent, isSign, isWhole, isFraction, isExponent⟩, ?_, hFound⟩
  simp [Numeral.text]

/-! ### Strings -/

theorem decodeUnit_extend {cs rest : List Char} {n : Nat} (h : decodeUnit cs = some (n, rest))
    (more : List Char) : decodeUnit (cs ++ more) = some (n, rest ++ more) := by
  unfold decodeUnit at h
  split at h
  · next a b c e tail =>
    simp only [Option.bind_eq_bind, Option.bind_eq_some_iff, Option.pure_def,
      Option.some.injEq, Prod.mk.injEq] at h
    obtain ⟨va, ha, vb, hb, vc, hc, ve, he, rfl, rfl⟩ := h
    simp [decodeUnit, ha, hb, hc, he]
  · cases h

theorem unitChar_extend {cs rest : List Char} {c : Char} (h : unitChar cs = some (c, rest))
    (more : List Char) : unitChar (cs ++ more) = some (c, rest ++ more) := by
  unfold unitChar at h ⊢
  cases hUnit : decodeUnit cs with
  | none =>
      rw [hUnit] at h
      cases h
  | some found =>
      obtain ⟨unit, tail⟩ := found
      rw [hUnit] at h
      rw [decodeUnit_extend hUnit more]
      simp only [Option.bind_eq_bind, Option.bind_some] at h ⊢
      by_cases hPair : 0xd800 ≤ unit ∧ unit ≤ 0xdfff
      · rw [if_pos hPair] at h ⊢
        split at h
        · next low =>
          cases hLow : decodeUnit low with
          | none =>
              rw [hLow] at h
              cases h
          | some found =>
              rw [hLow] at h
              rw [List.cons_append, List.cons_append]
              change (decodeUnit (low ++ more)).bind _ = _
              rw [decodeUnit_extend hLow more]
              simp only [Option.bind_some] at h ⊢
              split_ifs at h with hHalf
              · rw [if_pos hHalf]
                obtain ⟨hChar, hTail⟩ := Prod.mk.inj (Option.some.inj h)
                rw [← hChar, ← hTail, Option.pure_def]
        · cases h
      · rw [if_neg hPair] at h ⊢
        cases h
        rfl

theorem scanChar_plain {c : Char} {cs : List Char} (h : c ≠ '\\') :
    scanChar (c :: cs) = if c.toNat < 0x20 then none else some (c, cs) := by
  rw [scanChar]
  · exact fun _ hc => absurd hc h
  · exact fun _ _ hc => absurd hc h
  · exact fun hc => absurd hc h

theorem scanChar_extend {cs rest : List Char} {c : Char} (h : scanChar cs = some (c, rest))
    (more : List Char) : scanChar (cs ++ more) = some (c, rest ++ more) := by
  unfold scanChar at h
  split at h
  · exact unitChar_extend h more
  · next e tail hNotUnit =>
    obtain ⟨found, hFound, hEq⟩ := Option.map_eq_some_iff.mp h
    cases hEq
    rw [List.cons_append, List.cons_append, scanChar]
    · rw [hFound]
      rfl
    · exact hNotUnit
  · cases h
  · next c' tail hNotUnit hNotEscape hNotEnd =>
    have hPlain : c' ≠ '\\' := by
      intro hEq
      cases tail with
      | nil => exact hNotEnd hEq rfl
      | cons e tail => exact hNotEscape e tail hEq rfl
    split_ifs at h with hControl
    cases h
    rw [List.cons_append, scanChar_plain hPlain, if_neg hControl]
  · cases h

theorem scanString_extend {n m : Nat} {cs rest : List Char} {s : String}
    (h : scanString n cs = some (s, rest)) (hn : n ≤ m) (more : List Char) :
    scanString m (cs ++ more) = some (s, rest ++ more) := by
  induction n generalizing m cs s rest with
  | zero => cases h
  | succ n ih =>
      obtain ⟨m, rfl⟩ := Nat.exists_eq_succ_of_ne_zero (Nat.ne_zero_of_lt hn)
      by_cases hQuote : ∃ tail, cs = '"' :: tail
      · obtain ⟨tail, rfl⟩ := hQuote
        cases h
        rfl
      · have hFirst : ∀ tail, cs ≠ '"' :: tail := fun tail hEq => hQuote ⟨tail, hEq⟩
        rw [scanString_step hFirst] at h
        cases hChar : scanChar cs with
        | none =>
            rw [hChar] at h
            cases h
        | some found =>
            obtain ⟨c, tail⟩ := found
            rw [hChar] at h
            simp only [Option.bind_eq_bind, Option.bind_some] at h
            cases hRest : scanString n tail with
            | none =>
                rw [hRest] at h
                cases h
            | some found =>
                obtain ⟨s', rest'⟩ := found
                rw [hRest] at h
                cases h
                have hFirst' : ∀ tail, cs ++ more ≠ '"' :: tail := by
                  cases cs with
                  | nil => cases hChar
                  | cons c cs =>
                      intro tail hEq
                      exact hFirst cs (by rw [(List.cons.inj hEq).1])
                rw [scanString_step hFirst', scanChar_extend hChar more]
                simp only [Option.bind_eq_bind, Option.bind_some]
                rw [ih hRest (Nat.le_of_succ_le_succ hn)]
                rfl

/-! ### Values -/

/-- A character behind which no number goes on. -/
def Stops (rest : List Char) : Prop := ∃ c tail, rest = c :: tail ∧ Ends [c]

theorem Stops.ends {rest : List Char} (h : Stops rest) (more : List Char) :
    Ends (rest ++ more) := by
  obtain ⟨c, tail, rfl, hEnds⟩ := h
  exact hEnds

theorem scanAtom_extend {cs rest : List Char} {j : Json} (h : d.scanAtom cs = some (j, rest))
    (hStops : Stops rest) (more : List Char) :
    d.scanAtom (cs ++ more) = some (j, rest ++ more) := by
  unfold Decoder.scanAtom at h
  split at h
  · next tail =>
    obtain ⟨⟨s, rest'⟩, hString, hEq⟩ := Option.map_eq_some_iff.mp h
    cases hEq
    have hLength : tail.length + 1 ≤ (tail ++ more).length + 1 := by simp
    rw [List.cons_append, Decoder.scanAtom, scanString_extend hString hLength more]
    rfl
  · cases h
    rfl
  · cases h
    rfl
  · cases h
    rfl
  · cases h
    rfl
  · cases h
    rfl
  · cases h
    rfl
  · obtain ⟨m, rfl, hNumber⟩ := scanNumber_sound h
    rw [List.append_assoc, m.scanAtom_text d (hStops.ends more), hNumber]
    rfl

theorem skipWs_extend {cs tail : List Char} {c : Char} (h : skipWs cs = c :: tail)
    (more : List Char) : skipWs (cs ++ more) = c :: (tail ++ more) := by
  have hSome : ¬ (cs.dropWhile isWs).isEmpty = true := by
    rw [skipWs] at h
    rw [h]
    simp
  rw [skipWs] at h ⊢
  rw [List.dropWhile_append, if_neg hSome, h]
  rfl

theorem stops_of_skipWs {cs tail : List Char} {c : Char} (h : skipWs cs = c :: tail)
    (hc : Ends [c]) : Stops cs := by
  cases cs with
  | nil => cases h
  | cons c' cs =>
      refine ⟨c', cs, rfl, ?_⟩
      by_cases hWs : isWs c' = true
      · have hFour : c' = ' ' ∨ c' = '\t' ∨ c' = '\n' ∨ c' = '\r' := by
          simpa [isWs, or_assoc] using hWs
        intro x hx
        obtain rfl := Option.some.inj hx
        rcases hFour with rfl | rfl | rfl | rfl
        · decide
        · decide
        · decide
        · decide
      · rw [skipWs_cons (by simpa using hWs)] at h
        rw [(List.cons.inj h).1]
        exact hc

section Items

variable {α : Type} {item : List Char → Option (α × List Char)} {close : Char}

/-- What is taken for a member does not depend on what follows. -/
structure Extends (item : List Char → Option (α × List Char)) : Prop where
  none : item [] = none
  extend : ∀ {cs rest : List Char} {a : α}, item cs = some (a, rest) → Stops rest →
    ∀ more, item (cs ++ more) = some (a, rest ++ more)

theorem ends_close (hClose : close = ']' ∨ close = '\x7d') : Ends [close] := by
  intro c hc
  obtain rfl := Option.some.inj hc
  rcases hClose with rfl | rfl
  · decide
  · decide

theorem items_extend (hItem : Extends item) (hClose : close = ']' ∨ close = '\x7d') {n m : Nat}
    {cs rest : List Char} {as : List α} (h : items item close n cs = some (as, rest))
    (hn : n ≤ m) (more : List Char) :
    items item close m (cs ++ more) = some (as, rest ++ more) := by
  induction n generalizing m cs as rest with
  | zero => cases h
  | succ n ih =>
      obtain ⟨m, rfl⟩ := Nat.exists_eq_succ_of_ne_zero (Nat.ne_zero_of_lt hn)
      rw [items] at h ⊢
      cases hFirst : item cs with
      | none =>
          rw [hFirst] at h
          cases h
      | some found =>
          obtain ⟨a, tail⟩ := found
          rw [hFirst] at h
          simp only [Option.bind_eq_bind, Option.bind_some] at h
          cases hTail : skipWs tail with
          | nil =>
              rw [hTail] at h
              cases h
          | cons c tail' =>
              rw [hTail] at h
              dsimp only at h
              by_cases hc : c = close
              · rw [if_pos hc] at h
                cases h
                have hStops := stops_of_skipWs hTail (hc ▸ ends_close hClose)
                rw [hItem.extend hFirst hStops more]
                simp only [Option.bind_eq_bind, Option.bind_some, skipWs_extend hTail more,
                  if_pos hc]
                rfl
              · rw [if_neg hc] at h
                split_ifs at h with hComma
                have hEnds : Ends [c] := by
                  rw [hComma]
                  intro x hx
                  obtain rfl := Option.some.inj hx
                  decide
                have hStops := stops_of_skipWs hTail hEnds
                cases hRest : items item close n (skipWs tail') with
                | none =>
                    rw [hRest] at h
                    cases h
                | some found =>
                    obtain ⟨as', rest'⟩ := found
                    rw [hRest] at h
                    cases h
                    have hSkip : skipWs (tail' ++ more) = skipWs tail' ++ more := by
                      cases hNext : skipWs tail' with
                      | nil =>
                          rw [hNext] at hRest
                          cases n with
                          | zero => cases hRest
                          | succ n =>
                              rw [items, hItem.none] at hRest
                              cases hRest
                      | cons c'' tail'' => exact skipWs_extend hNext more
                    rw [hItem.extend hFirst hStops more]
                    simp only [Option.bind_eq_bind, Option.bind_some, skipWs_extend hTail more,
                      if_neg hc, if_pos hComma, hSkip, ih hRest (Nat.le_of_succ_le_succ hn)]
                    rfl

theorem members_extend (hItem : Extends item) (hClose : close = ']' ∨ close = '\x7d')
    {cs rest : List Char} {as : List α} (h : members item close cs = some (as, rest))
    (more : List Char) : members item close (cs ++ more) = some (as, rest ++ more) := by
  unfold members at h ⊢
  cases hFirst : skipWs cs with
  | nil =>
      rw [hFirst] at h
      cases h
  | cons c tail =>
      rw [hFirst] at h
      rw [skipWs_extend hFirst more]
      dsimp only at h ⊢
      by_cases hc : c = close
      · rw [if_pos hc] at h ⊢
        cases h
        rfl
      · rw [if_neg hc] at h ⊢
        exact items_extend hItem hClose h (by simp) more

end Items

theorem field_extend {value : List Char → Option (Json × List Char)} (h : Extends value) :
    Extends (field value) where
  none := rfl
  extend {cs rest f} hField hStops more := by
    unfold field at hField
    split at hField
    · next tail =>
      cases hName : scanString (tail.length + 1) tail with
      | none =>
          rw [hName] at hField
          cases hField
      | some found =>
          obtain ⟨name, tail'⟩ := found
          rw [hName] at hField
          simp only [Option.bind_eq_bind, Option.bind_some] at hField
          cases hColon : skipWs tail' with
          | nil =>
              rw [hColon] at hField
              cases hField
          | cons c tail'' =>
              rw [hColon] at hField
              split at hField
              · next heq =>
                cases heq
                cases hValue : value (skipWs tail'') with
                | none =>
                    rw [hValue] at hField
                    cases hField
                | some found =>
                    obtain ⟨j, rest'⟩ := found
                    rw [hValue] at hField
                    cases hField
                    have hSkip : skipWs (tail'' ++ more) = skipWs tail'' ++ more := by
                      cases hNext : skipWs tail'' with
                      | nil =>
                          rw [hNext, h.none] at hValue
                          cases hValue
                      | cons c' rest' => exact skipWs_extend hNext more
                    have hLength : tail.length + 1 ≤ (tail ++ more).length + 1 := by simp
                    rw [List.cons_append, field, scanString_extend hName hLength more]
                    simp only [Option.bind_eq_bind, Option.bind_some, skipWs_extend hColon more,
                      hSkip, h.extend hValue hStops more]
                    rfl
              · cases hField
    · cases hField

theorem scanOnce_extend (d : Decoder) (depth : Nat) : Extends (d.scanOnce depth) := by
  induction depth with
  | zero =>
      refine ⟨rfl, fun {cs rest j} h hStops more => ?_⟩
      exact scanAtom_extend h hStops more
  | succ depth ih =>
      refine ⟨rfl, fun {cs rest j} h hStops more => ?_⟩
      unfold Decoder.scanOnce at h
      split at h
      · obtain ⟨⟨values, rest'⟩, hMembers, hEq⟩ := Option.map_eq_some_iff.mp h
        cases hEq
        rw [List.cons_append, Decoder.scanOnce, members_extend ih (Or.inl rfl) hMembers more]
        rfl
      · obtain ⟨⟨fields, rest'⟩, hMembers, hEq⟩ := Option.map_eq_some_iff.mp h
        cases hEq
        rw [List.cons_append, Decoder.scanOnce,
          members_extend (field_extend ih) (Or.inr rfl) hMembers more]
        rfl
      · next hArr hObj =>
        have hAtom := scanAtom_extend h hStops more
        cases cs with
        | nil => cases h
        | cons c cs =>
            rw [List.cons_append] at hAtom ⊢
            rw [scanOnce_atom (fun hc => hArr cs (by rw [hc])) (fun hc => hObj cs (by rw [hc]))]
            exact hAtom

/-- An object whose text is cut off is no value. -/
theorem loads_cut {fields : Fields} (h : d.Fits d.depth (.obj fields)) {cut more : List Char}
    (hCut : cut ++ more = encode (.obj fields)) (hMore : more ≠ []) :
    d.loads (String.ofList cut) = none := by
  cases cut with
  | nil =>
      have hScan : d.scanOnce d.depth (skipWs []) = none := (scanOnce_extend d d.depth).none
      rw [Decoder.loads, String.toList_ofList, hScan]
      rfl
  | cons c cut =>
      obtain ⟨rfl, hText⟩ := List.cons.inj hCut
      obtain ⟨depth, hDepth⟩ : ∃ depth, d.depth = depth + 1 := by
        cases hDepth : d.depth with
        | zero =>
            rw [hDepth] at h
            cases h
        | succ depth => exact ⟨depth, rfl⟩
      have hSkip : skipWs ('\x7b' :: cut) = '\x7b' :: cut := skipWs_cons rfl
      rw [Decoder.loads, String.toList_ofList, hSkip]
      cases hScan : d.scanOnce d.depth ('\x7b' :: cut) with
      | none => rfl
      | some found =>
          -- All of the text reads as the same value, with the rest of it left over.
          obtain ⟨j, rest⟩ := found
          have hEnds : Ends [] := fun c hc => by cases hc
          have hWhole := scanOnce_encode h hEnds
          rw [List.append_nil, ← hCut, hDepth] at hWhole
          rw [hDepth] at hScan
          rw [Decoder.scanOnce] at hScan
          rw [List.cons_append, Decoder.scanOnce] at hWhole
          obtain ⟨⟨found, rest'⟩, hMembers, hEq⟩ := Option.map_eq_some_iff.mp hScan
          cases hEq
          rw [members_extend (field_extend (scanOnce_extend d depth)) (Or.inr rfl) hMembers
            more] at hWhole
          have hRest := congrArg Prod.snd (Option.some.inj hWhole)
          exact absurd (List.append_eq_nil_iff.mp hRest).2 hMore

end WattPost.Cloud.JsonText
