import Mathlib.Data.List.Basic

/-! Lines of fields between separators, where a mark in front of a character takes its meaning
away. A line is first read as tokens; every way to split or to clean it is then a matter of what
is kept of a token. -/
namespace EscapedFields

variable {α β : Type}

/-- A separator, a character that stands for itself, or one behind a mark. -/
inductive Token (α : Type) where
  | separator
  | plain (a : α)
  | escaped (a : α)
deriving DecidableEq

/-- The character that a token means. -/
def Token.value (sep : α) : Token α → α
  | .separator => sep
  | .plain a => a
  | .escaped a => a

/-- What is kept of a token, where `kept` says what of a mark and the character behind it. -/
def Token.text (sep : α) (kept : α → List α) : Token α → List α
  | .separator => [sep]
  | .plain a => [a]
  | .escaped a => kept a

/-- The token as it stands in the line. -/
def Token.source (esc sep : α) : Token α → List α := Token.text sep fun a => [esc, a]

/-! ### Between tokens and fields -/

theorem flatMap_intercalate (f : α → List β) (xs : List α) (xss : List (List α)) :
    (xs.intercalate xss).flatMap f =
      (xs.flatMap f).intercalate (xss.map fun ys => ys.flatMap f) := by
  induction xss with
  | nil => rfl
  | cons ys xss ih =>
      cases xss with
      | nil => simp
      | cons zs xss =>
          rw [List.intercalate_cons_cons, List.flatMap_append, List.flatMap_append, ih]
          simp

theorem map_intercalate (f : α → β) (xs : List α) (xss : List (List α)) :
    (xs.intercalate xss).map f = (xs.map f).intercalate (xss.map fun ys => ys.map f) := by
  simp only [List.map_eq_flatMap (f := f)]
  exact flatMap_intercalate (fun a => [f a]) xs xss

/-- What holds of all pieces of a list, and of a piece with one more element in front, holds of
all pieces of the longer list. -/
theorem forall_mem_splitOn_cons [DecidableEq α] {P : List α → Prop} {sep a : α} {xs : List α}
    (hNil : P []) (hCons : ∀ piece, P piece → P (a :: piece))
    (h : ∀ piece ∈ xs.splitOn sep, P piece) : ∀ piece ∈ (a :: xs).splitOn sep, P piece := by
  rw [List.splitOn_cons_eq_if_modifyHead]
  split_ifs with hSep
  · exact List.forall_mem_cons.mpr ⟨hNil, h⟩
  · cases hPieces : xs.splitOn sep with
    | nil => exact absurd hPieces (List.splitOn_ne_nil _ _)
    | cons piece pieces =>
        rw [hPieces] at h
        obtain ⟨hPiece, hLater⟩ := List.forall_mem_cons.mp h
        exact List.forall_mem_cons.mpr ⟨hCons piece hPiece, hLater⟩

theorem mem_intercalate {xs : List α} {xss : List (List α)} {a : α}
    (h : a ∈ xs.intercalate xss) : a ∈ xs ∨ ∃ ys ∈ xss, a ∈ ys := by
  induction xss with
  | nil => exact absurd h List.not_mem_nil
  | cons ys xss ih =>
      cases xss with
      | nil =>
          rw [List.intercalate_singleton] at h
          exact Or.inr ⟨ys, List.mem_cons_self, h⟩
      | cons zs xss =>
          rw [List.intercalate_cons_cons, List.mem_append, List.mem_append] at h
          rcases h with (hFirst | hSep) | hLater
          · exact Or.inr ⟨ys, List.mem_cons_self, hFirst⟩
          · exact Or.inl hSep
          · exact (ih hLater).imp_right fun ⟨piece, hPiece, ha⟩ =>
              ⟨piece, List.mem_cons_of_mem _ hPiece, ha⟩

theorem intercalate_drop_suffix (sep : List α) (xss : List (List α)) (n : Nat) :
    sep.intercalate (xss.drop n) <:+ sep.intercalate xss := by
  induction xss generalizing n with
  | nil => simp
  | cons xs xss ih =>
      cases n with
      | zero => exact List.suffix_rfl
      | succ n =>
          refine (ih n).trans ?_
          cases xss with
          | nil => exact List.nil_suffix
          | cons ys xss =>
              rw [List.intercalate_cons_cons]
              exact List.suffix_append _ _

section Lexing

variable [DecidableEq α] (esc sep : α)

/-- A character with no mark in front. -/
def bare (a : α) : Token α := if a = sep then .separator else .plain a

/-- The tokens of a line. A mark at its end has nothing to act on. -/
def lex : List α → List (Token α)
  | [] => []
  | [a] => [bare sep a]
  | a :: b :: rest =>
      if a = esc then .escaped b :: lex rest else bare sep a :: lex (b :: rest)

/-- The fields of a line, in tokens. -/
def fields (line : List α) : List (List (Token α)) := (lex esc sep line).splitOn .separator

variable {esc sep}

@[simp] theorem value_bare (a : α) : (bare sep a).value sep = a := by
  unfold bare
  split_ifs with hSep
  · exact hSep.symm
  · rfl

@[simp] theorem text_bare (kept : α → List α) (a : α) : (bare sep a).text sep kept = [a] := by
  unfold bare
  split_ifs with hSep
  · rw [hSep]
    rfl
  · rfl

/-- A character that is no mark is read by itself, whatever follows. -/
theorem lex_cons {a : α} (h : a ≠ esc) (rest : List α) :
    lex esc sep (a :: rest) = bare sep a :: lex esc sep rest := by
  cases rest with
  | nil => rfl
  | cons b rest => rw [lex, if_neg h]

theorem lex_escaped (a : α) (rest : List α) :
    lex esc sep (esc :: a :: rest) = .escaped a :: lex esc sep rest := by
  rw [lex, if_pos rfl]

@[simp] theorem source_bare (a : α) : (bare sep a).source esc sep = [a] := text_bare _ a

/-- No character of a line is lost. -/
theorem source_lex (line : List α) :
    (lex esc sep line).flatMap (Token.source esc sep) = line := by
  induction line using lex.induct esc with
  | case1 => rfl
  | case2 a => simp [lex]
  | case3 b rest ih =>
      rw [lex_escaped, List.flatMap_cons, ih]
      rfl
  | case4 a b rest hPlain ih => rw [lex_cons hPlain, List.flatMap_cons, ih, source_bare]; rfl

/-- The fields with their marks, put between separators again, are the line. -/
theorem intercalate_fields (line : List α) :
    [sep].intercalate ((fields esc sep line).map fun field =>
      field.flatMap (Token.source esc sep)) = line := by
  have hSep : [sep] = [Token.separator].flatMap (Token.source esc sep) := rfl
  rw [hSep, ← flatMap_intercalate, fields, List.intercalate_splitOn, source_lex]

/-- From any token on, a line is read by itself as it is read in the whole. -/
theorem lex_suffix {line : List α} {tokens : List (Token α)}
    (h : tokens <:+ lex esc sep line) :
    lex esc sep (tokens.flatMap (Token.source esc sep)) = tokens := by
  induction line using lex.induct esc with
  | case1 =>
      obtain rfl := List.suffix_nil.mp h
      rfl
  | case2 a =>
      rcases List.suffix_cons_iff.mp h with rfl | hNil
      · exact congrArg (lex esc sep) (source_lex [a])
      · obtain rfl := List.suffix_nil.mp hNil
        rfl
  | case3 b rest ih =>
      rw [lex_escaped] at h
      rcases List.suffix_cons_iff.mp h with rfl | hRest
      · rw [← lex_escaped, source_lex]
      · exact ih hRest
  | case4 a b rest hPlain ih =>
      rw [lex_cons hPlain] at h
      rcases List.suffix_cons_iff.mp h with rfl | hRest
      · rw [← lex_cons hPlain, source_lex]
      · exact ih hRest

/-- The fields from the `n`-th on, put together again, are read as they were. -/
theorem lex_drop (line : List α) (n : Nat) :
    lex esc sep (([.separator].intercalate ((fields esc sep line).drop n)).flatMap
        (Token.source esc sep)) =
      [.separator].intercalate ((fields esc sep line).drop n) := by
  have hWhole : [Token.separator].intercalate (fields esc sep line) = lex esc sep line :=
    List.intercalate_splitOn _
  have hSuffix := intercalate_drop_suffix [Token.separator] (fields esc sep line) n
  rw [hWhole] at hSuffix
  exact lex_suffix hSuffix

/-- A field of a line is read by itself as it is read in the line. -/
theorem lex_field (line : List α) : ∀ field ∈ fields esc sep line,
    lex esc sep (field.flatMap (Token.source esc sep)) = field := by
  induction line using lex.induct esc with
  | case1 => exact List.forall_mem_singleton.mpr rfl
  | case2 a =>
      rw [fields, lex, List.splitOn_cons_eq_if_modifyHead, List.splitOn_nil]
      split_ifs
      · exact List.forall_mem_cons.mpr ⟨rfl, List.forall_mem_singleton.mpr rfl⟩
      · refine List.forall_mem_singleton.mpr ?_
        rw [List.flatMap_singleton, source_bare]
        rfl
  | case3 b rest ih =>
      rw [fields, lex_escaped]
      refine forall_mem_splitOn_cons rfl (fun field hField => ?_) ih
      rw [List.flatMap_cons]
      exact (lex_escaped b _).trans (congrArg _ hField)
  | case4 a b rest hPlain ih =>
      rw [fields, lex_cons hPlain]
      refine forall_mem_splitOn_cons rfl (fun field hField => ?_) ih
      rw [List.flatMap_cons, source_bare]
      exact (lex_cons hPlain _).trans (congrArg _ hField)

/-! ### What was written -/

variable (esc sep)

/-- A character that could be taken for something else gets a mark. -/
def code (a : α) : List α := if a = esc ∨ a = sep then [esc, a] else [a]

def escape (field : List α) : List α := field.flatMap (code esc sep)

def join (fields : List (List α)) : List α := [sep].intercalate (fields.map (escape esc sep))

variable {esc sep} in
theorem escape_of_plain {field : List α} (h : ∀ a ∈ field, a ≠ esc ∧ a ≠ sep) :
    escape esc sep field = field := by
  have hCode : ∀ a ∈ field, code esc sep a = [a] := fun a ha => if_neg (not_or.mpr (h a ha))
  rw [escape, List.flatMap_congr hCode, List.flatMap_singleton']

variable {esc sep} in
/-- Nothing is written but the fields, marks and separators. -/
theorem mem_join {a : α} {fs : List (List α)} (h : a ∈ join esc sep fs) :
    a = esc ∨ a = sep ∨ ∃ field ∈ fs, a ∈ field := by
  have hField : ∀ field ∈ fs, a ∈ escape esc sep field → a = esc ∨ ∃ field ∈ fs, a ∈ field := by
    intro field hfield hMem
    obtain ⟨b, hb, hab⟩ := List.mem_flatMap.mp hMem
    unfold code at hab
    split_ifs at hab
    · rcases List.mem_cons.mp hab with rfl | hab
      · exact Or.inl rfl
      · obtain rfl := List.mem_singleton.mp hab
        exact Or.inr ⟨field, hfield, hb⟩
    · obtain rfl := List.mem_singleton.mp hab
      exact Or.inr ⟨field, hfield, hb⟩
  rcases mem_intercalate h with hSep | ⟨part, hPart, ha⟩
  · exact Or.inr (Or.inl (List.mem_singleton.mp hSep))
  · obtain ⟨field, hfield, rfl⟩ := List.mem_map.mp hPart
    exact (hField field hfield ha).imp_right Or.inr

/-- The token that is read for a character. -/
def tokenOf (a : α) : Token α := if a = esc ∨ a = sep then .escaped a else .plain a

variable {esc sep}

@[simp] theorem value_tokenOf (a : α) : (tokenOf esc sep a).value sep = a := by
  unfold tokenOf
  split_ifs <;> rfl

@[simp] theorem source_tokenOf (a : α) :
    (tokenOf esc sep a).source esc sep = code esc sep a := by
  unfold tokenOf code
  split_ifs <;> rfl

theorem tokenOf_ne_separator (a : α) : tokenOf esc sep a ≠ .separator := by
  unfold tokenOf
  split_ifs
  · exact fun h => by cases h
  · exact fun h => by cases h

theorem lex_code_append (a : α) (rest : List α) :
    lex esc sep (code esc sep a ++ rest) = tokenOf esc sep a :: lex esc sep rest := by
  unfold code tokenOf
  split_ifs with hMarked
  · exact lex_escaped a rest
  · rw [not_or] at hMarked
    rw [List.singleton_append, lex_cons hMarked.1, bare, if_neg hMarked.2]

theorem lex_escape_append (field rest : List α) :
    lex esc sep (escape esc sep field ++ rest) =
      field.map (tokenOf esc sep) ++ lex esc sep rest := by
  induction field with
  | nil => rfl
  | cons a field ih =>
      rw [escape, List.flatMap_cons, List.append_assoc, lex_code_append, ← escape, ih]
      rfl

theorem lex_escape (field : List α) :
    lex esc sep (escape esc sep field) = field.map (tokenOf esc sep) := by
  have h : lex esc sep (escape esc sep field ++ []) = _ := lex_escape_append field []
  rwa [List.append_nil, lex, List.append_nil] at h

@[simp] theorem map_value_tokenOf (field : List α) :
    (field.map (tokenOf esc sep)).map (Token.value sep) = field := by
  rw [List.map_map]
  exact List.map_id'' value_tokenOf field

@[simp] theorem flatMap_source_tokenOf (field : List α) :
    (field.map (tokenOf esc sep)).flatMap (Token.source esc sep) = escape esc sep field := by
  rw [List.flatMap_map]
  exact List.flatMap_congr fun a _ => source_tokenOf a

/-- The tokens of a line that was written. -/
theorem lex_join (hNe : sep ≠ esc) (fs : List (List α)) :
    lex esc sep (join esc sep fs) =
      [.separator].intercalate (fs.map fun field => field.map (tokenOf esc sep)) := by
  unfold join
  induction fs with
  | nil => rfl
  | cons field fs ih =>
      cases fs with
      | nil => simp [lex_escape]
      | cons next fs =>
          simp only [List.map_cons, List.intercalate_cons_cons] at ih ⊢
          rw [List.append_assoc, lex_escape_append, List.singleton_append, lex_cons hNe, ih, bare,
            if_pos rfl]
          simp

/-- The fields that were written are the fields that are read. -/
theorem fields_join (hNe : sep ≠ esc) {fs : List (List α)} (hSome : fs ≠ []) :
    fields esc sep (join esc sep fs) = fs.map fun field => field.map (tokenOf esc sep) := by
  have hNoSep : ∀ field ∈ fs.map fun field => field.map (tokenOf esc sep),
      Token.separator ∉ field := by
    intro field hField
    obtain ⟨written, -, rfl⟩ := List.mem_map.mp hField
    intro hSep
    obtain ⟨a, -, ha⟩ := List.mem_map.mp hSep
    exact tokenOf_ne_separator a ha
  rw [fields, lex_join hNe, List.splitOn_intercalate _ hNoSep (by simpa using hSome)]

end Lexing
end EscapedFields
