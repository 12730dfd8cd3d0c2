import Mathlib.Data.List.Infix

/-! The lines of a text file as Python reads them: every kind of line end becomes a line feed,
and each line keeps its own. -/
namespace PyLines

/-- What `open(path, "r")` makes of the line ends. -/
def universalNewlines : List Char → List Char
  | [] => []
  | '\r' :: '\n' :: cs => '\n' :: universalNewlines cs
  | '\r' :: cs => '\n' :: universalNewlines cs
  | c :: cs => c :: universalNewlines cs

/-- `readlines()`. -/
def splitKeep : List Char → List (List Char)
  | [] => []
  | c :: cs =>
      if c = '\n' then ['\n'] :: splitKeep cs
      else
        match splitKeep cs with
        | [] => [[c]]
        | line :: lines => (c :: line) :: lines

def readlines (text : List Char) : List (List Char) := splitKeep (universalNewlines text)

/-- Lines as they are read: each ends in its only line feed, and the last one may do without. -/
inductive IsLines : List (List Char) → Prop where
  | nil : IsLines []
  | last {line : List Char} (ne : line ≠ []) (noFeed : '\n' ∉ line) : IsLines [line]
  | cons {body : List Char} {lines : List (List Char)} (noFeed : '\n' ∉ body)
      (rest : IsLines lines) : IsLines ((body ++ ['\n']) :: lines)

theorem isLines_splitKeep (cs : List Char) : IsLines (splitKeep cs) := by
  induction cs with
  | nil => exact .nil
  | cons c cs ih =>
      rw [splitKeep]
      split_ifs with hFeed
      · exact IsLines.cons List.not_mem_nil ih
      · have hNe : '\n' ≠ c := Ne.symm hFeed
        cases hLines : splitKeep cs with
        | nil => exact .last (List.cons_ne_nil _ _) (by simpa using hNe)
        | cons line lines =>
            rw [hLines] at ih
            generalize hAll : line :: lines = all at ih
            cases ih with
            | nil => cases hAll
            | last ne noFeed =>
                cases hAll
                exact .last (List.cons_ne_nil _ _) (by simpa [hNe] using noFeed)
            | @cons body rest noFeed hRest =>
                cases hAll
                have hBody : '\n' ∉ c :: body := by simpa [hNe] using noFeed
                exact IsLines.cons hBody hRest

theorem splitKeep_of_notMem {line : List Char} (hNe : line ≠ []) (h : '\n' ∉ line) :
    splitKeep line = [line] := by
  induction line with
  | nil => exact absurd rfl hNe
  | cons c cs ih =>
      rw [List.mem_cons, not_or] at h
      rw [splitKeep, if_neg (Ne.symm h.1)]
      cases cs with
      | nil => rfl
      | cons d ds => rw [ih (List.cons_ne_nil _ _) h.2]

theorem splitKeep_line {body : List Char} (h : '\n' ∉ body) (rest : List Char) :
    splitKeep (body ++ '\n' :: rest) = (body ++ ['\n']) :: splitKeep rest := by
  induction body with
  | nil => rw [List.nil_append, splitKeep, if_pos rfl, List.nil_append]
  | cons c cs ih =>
      rw [List.mem_cons, not_or] at h
      rw [List.cons_append, splitKeep, if_neg (Ne.symm h.1), ih h.2]
      rfl

/-- Lines that were written are read back. -/
theorem IsLines.splitKeep_flatten {lines : List (List Char)} (h : IsLines lines) :
    splitKeep lines.flatten = lines := by
  induction h with
  | nil => rfl
  | last ne noFeed => rw [List.flatten_singleton, splitKeep_of_notMem ne noFeed]
  | @cons body lines noFeed _ ih =>
      rw [List.flatten_cons, List.append_assoc, List.singleton_append, splitKeep_line noFeed, ih]

/-- A line may give way to another one with its line feed. -/
theorem IsLines.replace {above below : List (List Char)} {line body : List Char}
    (h : IsLines (above ++ line :: below)) (hBody : '\n' ∉ body) :
    IsLines (above ++ (body ++ ['\n']) :: below) := by
  generalize hAll : above ++ line :: below = all at h
  induction h generalizing above with
  | nil => exact absurd hAll (by simp)
  | last ne noFeed =>
      obtain ⟨rfl, hLine⟩ : above = [] ∧ line :: below = [_] := by
        cases above with
        | nil => exact ⟨rfl, hAll⟩
        | cons a above => simp at hAll
      cases hLine
      exact IsLines.cons hBody .nil
  | @cons first lines noFeed hRest ih =>
      cases above with
      | nil =>
          cases hAll
          exact IsLines.cons hBody hRest
      | cons a above =>
          cases hAll
          exact IsLines.cons noFeed (ih rfl)

/-- A line has its feed at the end only. -/
theorem IsLines.line {above below : List (List Char)} {line : List Char}
    (h : IsLines (above ++ line :: below)) :
    ∃ body, '\n' ∉ body ∧ (line = body ++ ['\n'] ∨ line = body) := by
  generalize hAll : above ++ line :: below = all at h
  induction h generalizing above with
  | nil => exact absurd hAll (by simp)
  | @last only ne noFeed =>
      have hLine : line = only := by
        cases above with
        | nil => exact (List.cons.inj hAll).1
        | cons a above => simp at hAll
      exact ⟨line, hLine ▸ noFeed, Or.inr rfl⟩
  | @cons first lines noFeed hRest ih =>
      cases above with
      | nil =>
          cases hAll
          exact ⟨first, noFeed, Or.inl rfl⟩
      | cons a above =>
          cases hAll
          exact ih rfl

theorem return_notMem_universalNewlines (cs : List Char) : '\r' ∉ universalNewlines cs := by
  induction cs using universalNewlines.induct with
  | case1 => exact List.not_mem_nil
  | case2 cs ih => simpa [universalNewlines] using ih
  | case3 cs hNot ih =>
      rw [universalNewlines]
      · simpa using ih
      · exact hNot
  | case4 c cs h1 h2 ih =>
      rw [universalNewlines]
      · have hNe : '\r' ≠ c := fun hEq => h2 hEq.symm
        simpa [hNe] using ih
      · exact h1
      · exact h2

theorem universalNewlines_of_notMem {cs : List Char} (h : '\r' ∉ cs) :
    universalNewlines cs = cs := by
  induction cs with
  | nil => rfl
  | cons c cs ih =>
      rw [List.mem_cons, not_or] at h
      rw [universalNewlines, ih h.2]
      · intro more hEq
        exact absurd hEq.symm h.1
      · intro hEq
        exact absurd hEq.symm h.1

theorem flatten_splitKeep (cs : List Char) : (splitKeep cs).flatten = cs := by
  induction cs with
  | nil => rfl
  | cons c cs ih =>
      rw [splitKeep]
      split_ifs with hFeed
      · rw [List.flatten_cons, ih, hFeed]
        rfl
      · cases hLines : splitKeep cs with
        | nil =>
            rw [hLines] at ih
            rw [← ih]
            rfl
        | cons line lines =>
            rw [hLines] at ih
            rw [← ih]
            rfl

/-- Lines without carriage returns are read back from a file. -/
theorem readlines_flatten {lines : List (List Char)} (h : IsLines lines)
    (hReturn : '\r' ∉ lines.flatten) : readlines lines.flatten = lines := by
  rw [readlines, universalNewlines_of_notMem hReturn, h.splitKeep_flatten]

/-! ### Without their ends -/

/-- The characters at which `splitlines` ends a line. -/
def isLineBreak (c : Char) : Bool :=
  (0x0a ≤ c.toNat && c.toNat ≤ 0x0d) || (0x1c ≤ c.toNat && c.toNat ≤ 0x1e) ||
    [0x85, 0x2028, 0x2029].contains c.toNat

theorem isLineBreak_of_range {c : Char} (h : 0x20 ≤ c.toNat ∧ c.toNat ≤ 0x7e) :
    isLineBreak c = false := by
  simp only [isLineBreak, Bool.or_eq_false_iff, Bool.and_eq_false_iff, decide_eq_false_iff_not,
    List.contains_eq_mem, List.mem_cons, List.not_mem_nil, or_false]
  omega

/-- `splitlines()`. -/
def splitlines : List Char → List (List Char)
  | [] => []
  | '\r' :: '\n' :: cs => [] :: splitlines cs
  | c :: cs =>
      if isLineBreak c then [] :: splitlines cs
      else
        match splitlines cs with
        | [] => [[c]]
        | line :: lines => (c :: line) :: lines

theorem splitlines_line {body : List Char} (h : ∀ c ∈ body, isLineBreak c = false)
    (rest : List Char) : splitlines (body ++ '\n' :: rest) = body :: splitlines rest := by
  induction body with
  | nil =>
      have hFeed : isLineBreak '\n' = true := by decide
      rw [List.nil_append, splitlines, if_pos hFeed]
      intro cs hReturn
      cases hReturn
  | cons c cs ih =>
      obtain ⟨hc, hcs⟩ := List.forall_mem_cons.mp h
      have hNotReturn : c ≠ '\r' := by
        rintro rfl
        cases hc
      rw [List.cons_append, splitlines, if_neg (Bool.eq_false_iff.mp hc), ih hcs]
      exact fun _ hReturn => absurd hReturn hNotReturn

/-- Lines that were written with a feed each are read back. -/
theorem splitlines_flatMap {lines : List (List Char)}
    (h : ∀ line ∈ lines, ∀ c ∈ line, isLineBreak c = false) :
    splitlines (lines.flatMap (· ++ ['\n'])) = lines := by
  induction lines with
  | nil => rfl
  | cons line lines ih =>
      obtain ⟨hLine, hLines⟩ := List.forall_mem_cons.mp h
      rw [List.flatMap_cons, List.append_assoc, List.singleton_append, splitlines_line hLine,
        ih hLines]

end PyLines
