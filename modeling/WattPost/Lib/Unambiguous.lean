import Mathlib.Data.List.Basic

/-! Printers whose texts can be read off the front of a longer text. What may follow a
text is a condition of its own, since a number ends only where something else begins. -/
namespace Unambiguous

variable {α : Type}

/-- The text of a value, with anything that may follow it, is the text of no other valid
value with anything that may follow. -/
def ReadsOff (print : α → List Char) (Valid : α → Prop) (Follows : List Char → Prop)
    (a : α) : Prop :=
  ∀ b r s, Valid b → Follows r → Follows s → print a ++ r = print b ++ s → a = b ∧ r = s

/-- Nothing follows, or something that does not start with such a character. -/
def StartsOutside (p : Char → Bool) (rest : List Char) : Prop :=
  ∀ c, rest.head? = some c → p c = false

theorem startsOutside_nil {p : Char → Bool} : StartsOutside p [] := by
  intro c hc
  cases hc

theorem startsOutside_cons {p : Char → Bool} {c : Char} (hc : p c = false) (rest : List Char) :
    StartsOutside p (c :: rest) := by
  intro d hd
  obtain rfl := Option.some.inj hd
  exact hc

/-- A run of characters ends where another kind of character begins. -/
theorem run_append_injective {p : Char → Bool} {xs ys r s : List Char}
    (hx : ∀ c ∈ xs, p c = true) (hy : ∀ c ∈ ys, p c = true) (hr : StartsOutside p r)
    (hs : StartsOutside p s) (h : xs ++ r = ys ++ s) : xs = ys ∧ r = s := by
  induction xs generalizing ys with
  | nil =>
      cases ys with
      | nil => exact ⟨rfl, h⟩
      | cons y ys =>
          have hOutside := hr y (by rw [← List.nil_append r, h]; rfl)
          rw [hy y List.mem_cons_self] at hOutside
          cases hOutside
  | cons x xs ih =>
      cases ys with
      | nil =>
          have hOutside := hs x (by rw [← List.nil_append s, ← h]; rfl)
          rw [hx x List.mem_cons_self] at hOutside
          cases hOutside
      | cons y ys =>
          obtain ⟨rfl, hRest⟩ := List.cons.inj h
          obtain ⟨rfl, rfl⟩ := ih (fun c hc => hx c (List.mem_cons_of_mem x hc))
            (fun c hc => hy c (List.mem_cons_of_mem x hc)) hRest
          exact ⟨rfl, rfl⟩

/-- A text whose characters are escaped one by one ends at its quote. -/
theorem quoted_append_injective {code : Char → List Char} {quote : Char}
    {read : List Char → Option (Char × List Char)}
    (hRead : ∀ c rest, read (code c ++ rest) = some (c, rest))
    (hQuote : ∀ c rest rest', code c ++ rest ≠ quote :: rest') {xs ys r s : List Char}
    (h : xs.flatMap code ++ quote :: r = ys.flatMap code ++ quote :: s) : xs = ys ∧ r = s := by
  induction xs generalizing ys with
  | nil =>
      cases ys with
      | nil => exact ⟨rfl, (List.cons.inj h).2⟩
      | cons y ys =>
          rw [List.flatMap_cons, List.append_assoc] at h
          exact absurd h.symm (hQuote y _ _)
  | cons x xs ih =>
      cases ys with
      | nil =>
          rw [List.flatMap_cons, List.append_assoc] at h
          exact absurd h (hQuote x _ _)
      | cons y ys =>
          rw [List.flatMap_cons, List.flatMap_cons, List.append_assoc, List.append_assoc] at h
          have hHead := congrArg read h
          rw [hRead, hRead, Option.some.injEq, Prod.mk.injEq] at hHead
          obtain ⟨rfl, hRest⟩ := hHead
          obtain ⟨rfl, rfl⟩ := ih hRest
          exact ⟨rfl, rfl⟩

/-- The texts after the first one, each behind a separator, and the close. -/
def furtherTexts (sep close : Char) : List (List Char) → List Char
  | [] => [close]
  | text :: texts => sep :: (text ++ furtherTexts sep close texts)

/-- The texts with separators between them, and the close. -/
def separated (sep close : Char) : List (List Char) → List Char
  | [] => [close]
  | text :: texts => text ++ furtherTexts sep close texts

section Separated

variable {sep close : Char} {print : α → List Char} {Valid : α → Prop}
  {Follows : List Char → Prop}

theorem follows_furtherTexts (hSep : ∀ rest, Follows (sep :: rest))
    (hClose : ∀ rest, Follows (close :: rest)) (xs : List α) (rest : List Char) :
    Follows (furtherTexts sep close (xs.map print) ++ rest) := by
  cases xs with
  | nil => exact hClose rest
  | cons x xs => exact hSep _

theorem furtherTexts_append_injective (hDistinct : sep ≠ close)
    (hSep : ∀ rest, Follows (sep :: rest)) (hClose : ∀ rest, Follows (close :: rest))
    {xs ys : List α} (hReads : ∀ x ∈ xs, ReadsOff print Valid Follows x)
    (hValid : ∀ y ∈ ys, Valid y) {r s : List Char}
    (h : furtherTexts sep close (xs.map print) ++ r = furtherTexts sep close (ys.map print) ++ s) :
    xs = ys ∧ r = s := by
  induction xs generalizing ys with
  | nil =>
      cases ys with
      | nil => exact ⟨rfl, (List.cons.inj h).2⟩
      | cons y ys => exact absurd (List.cons.inj h).1.symm hDistinct
  | cons x xs ih =>
      cases ys with
      | nil => exact absurd (List.cons.inj h).1 hDistinct
      | cons y ys =>
          simp only [List.map_cons, furtherTexts, List.cons_append, List.append_assoc,
            List.cons.injEq, true_and] at h
          obtain ⟨rfl, hRest⟩ := hReads x List.mem_cons_self y _ _ (hValid y List.mem_cons_self)
            (follows_furtherTexts hSep hClose xs r) (follows_furtherTexts hSep hClose ys s) h
          obtain ⟨rfl, rfl⟩ := ih (fun z hz => hReads z (List.mem_cons_of_mem x hz))
            (fun z hz => hValid z (List.mem_cons_of_mem x hz)) hRest
          exact ⟨rfl, rfl⟩

/-- A list whose members can be read off, and do not start like its close, can be read off. -/
theorem separated_append_injective (hDistinct : sep ≠ close)
    (hSep : ∀ rest, Follows (sep :: rest)) (hClose : ∀ rest, Follows (close :: rest))
    {xs ys : List α} (hReads : ∀ x ∈ xs, ReadsOff print Valid Follows x)
    (hOpen : ∀ x ∈ xs, ∀ rest rest', print x ++ rest ≠ close :: rest')
    (hOpen' : ∀ y ∈ ys, ∀ rest rest', print y ++ rest ≠ close :: rest')
    (hValid : ∀ y ∈ ys, Valid y) {r s : List Char}
    (h : separated sep close (xs.map print) ++ r = separated sep close (ys.map print) ++ s) :
    xs = ys ∧ r = s := by
  cases xs with
  | nil =>
      cases ys with
      | nil => exact ⟨rfl, (List.cons.inj h).2⟩
      | cons y ys =>
          simp only [List.map_cons, List.map_nil, separated, List.append_assoc] at h
          exact absurd h.symm (hOpen' y List.mem_cons_self _ _)
  | cons x xs =>
      cases ys with
      | nil =>
          simp only [List.map_cons, List.map_nil, separated, List.append_assoc] at h
          exact absurd h (hOpen x List.mem_cons_self _ _)
      | cons y ys =>
          -- With one more separator in front, both are the further texts of a list.
          apply furtherTexts_append_injective hDistinct hSep hClose hReads hValid
          exact congrArg (sep :: ·) h

end Separated

end Unambiguous
