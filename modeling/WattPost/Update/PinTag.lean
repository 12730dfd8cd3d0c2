import WattPost.Lib.FileProgram
import WattPost.Lib.PyLines
import WattPost.Lib.PyText

/-! The updater pins the tag of its service in the compose file. It works on the lines of the
file: behind a header with the name of the service, the first image line gets the new tag. -/
namespace WattPost.Update

open FileProgram PyText PyLines

/-! ### The regular expressions -/

/-- `[A-Za-z0-9._-]`. -/
def isTagChar (c : Char) : Bool := c.isAlphanum || c = '.' || c = '_' || c = '-'

/-- `_VERSION_RE`; its `$` also holds before a line feed at the end. -/
def versionMatches (version : List Char) : Bool :=
  let tag := version.takeWhile isTagChar
  let rest := version.dropWhile isTagChar
  1 ≤ tag.length && tag.length ≤ 32 && (rest == [] || rest == ['\n'])

/-- `svc_header_re`. -/
def isHeader (name ln : List Char) : Bool :=
  let rest := ln.dropWhile isSpace
  !(ln.takeWhile isSpace).isEmpty && (name ++ [':']).isPrefixOf rest &&
    (rest.drop (name.length + 1)).all isSpace

/-- `len(ln) - len(ln.lstrip())`. -/
def indentOf (ln : List Char) : Nat := (ln.takeWhile isSpace).length

/-- The line begins a sibling of the service. -/
def bails (indent : Nat) (ln : List Char) : Bool :=
  let stripped := rstripBy (· == '\n') ln
  !stripped.isEmpty && !(List.replicate (indent + 2) ' ').isPrefixOf stripped &&
    (List.replicate indent ' ').isPrefixOf stripped && stripped.getLast? == some ':'

/-- The three groups of an image line. -/
structure ImageLine where
  head : List Char
  ref : List Char
  tail : List Char

/-- `(\s*(?:#.*)?)$`, as a group: without the line feed behind a comment. -/
def matchTail (cs : List Char) : Option (List Char) :=
  match cs.dropWhile isSpace with
  | [] => some cs
  | '#' :: more =>
      match more.dropWhile (· != '\n') with
      | [] => some cs
      | ['\n'] => some (cs.takeWhile isSpace ++ '#' :: more.takeWhile (· != '\n'))
      | _ => none
  | _ => none

/-- `(\S+?)` and the group behind it. -/
def matchRef : List Char → Option (List Char × List Char)
  | [] => none
  | c :: cs =>
      if isSpace c then none
      else
        match matchTail cs with
        | some tail => some ([c], tail)
        | none => (matchRef cs).map fun m => (c :: m.1, m.2)

def imageKey : List Char := "image:".toList

/-- `^(\s+image:\s*)(\S+?)(\s*(?:#.*)?)$`. -/
def matchImage (ln : List Char) : Option ImageLine :=
  let indent := ln.takeWhile isSpace
  let rest := ln.dropWhile isSpace
  let more := rest.drop imageKey.length
  if indent ≠ [] ∧ imageKey <+: rest then
    (matchRef (more.dropWhile isSpace)).map fun m =>
      { head := indent ++ imageKey ++ more.takeWhile isSpace, ref := m.1, tail := m.2 }
  else none

/-! ### The new line -/

/-- `s.rsplit(":", 1)[0]`. -/
def rsplitColon (cs : List Char) : List Char :=
  match cs.reverse.dropWhile (· != ':') with
  | [] => cs
  | _ :: more => more.reverse

/-- The `repo` of the code. -/
def repoOf (ref : List Char) : List Char :=
  if '@' ∈ ref then rsplitColon (ref.takeWhile (· != '@'))
  else if ':' ∈ ref then rsplitColon ref
  else ref

def newRef (version ref : List Char) : List Char := repoOf ref ++ ':' :: version

def ImageLine.rewrite (m : ImageLine) (version : List Char) : List Char :=
  let ln := m.head ++ newRef version m.ref ++ m.tail
  if m.tail.getLast? = some '\n' then ln else ln ++ ['\n']

/-! ### The file -/

/-- `SERVICE_NAME` and `COMPOSE_FILE`; a service has a name of these characters. -/
structure Updater where
  serviceName : List Char
  composeFile : String
  named : ∀ c ∈ serviceName, isTagChar c = true
  /-- Python's `repr` of a string. -/
  repr : String → String

inductive Pinned where
  | missing
  | noop
  | rewrote (lines : List (List Char))
deriving DecidableEq

/-- Goes on below a line that stays. -/
def Pinned.below (ln : List Char) : Pinned → Pinned
  | .rewrote lines => .rewrote (ln :: lines)
  | other => other

/-- The loop over the lines; `indent` is `service_indent` within the service. -/
def pinLines (u : Updater) (version : List Char) : Option Nat → List (List Char) → Pinned
  | _, [] => .missing
  | indent, ln :: lines =>
      if isHeader u.serviceName ln then
        (pinLines u version (some (indentOf ln)) lines).below ln
      else
        match indent with
        | none => (pinLines u version none lines).below ln
        | some k =>
            if bails k ln then .missing
            else
              match matchImage ln with
              | none => (pinLines u version (some k) lines).below ln
              | some m =>
                  if newRef version m.ref = m.ref then .noop
                  else .rewrote (m.rewrite version :: lines)

/-- What reading and writing the file run into. -/
structure Faults where
  read : Fault String
  write : Fault String

/-- `f.readlines()`, or the error. -/
def readCompose (u : Updater) (fault : Fault String) :
    FileM String String (Except String (List (List Char))) :=
  FileM.handle
    (do
      attempt fault
      match ← read u.composeFile with
      | none => FileM.raise "FileNotFoundError"
      | some text => pure (.ok (readlines text.toList)))
    fun e => pure (.error e)

/-- `f.writelines(lines)`, and its error. -/
def writeCompose (u : Updater) (fault : Fault String) (lines : List (List Char)) :
    FileM String String (Option String) :=
  FileM.handle
    (do
      write fault u.composeFile (String.ofList lines.flatten)
      pure none)
    fun e => pure (some e)

def pinTagInCompose (u : Updater) (faults : Faults) (version : String) :
    FileM String String (Bool × String) :=
  if versionMatches version.toList then do
    match ← readCompose u faults.read with
    | .error e => pure (false, "can't read " ++ u.composeFile ++ ": " ++ e)
    | .ok lines =>
        match pinLines u version.toList none lines with
        | .missing =>
            pure (false, "no image: line found under service " ++
              u.repr (String.ofList u.serviceName))
        | .noop => pure (true, "no-op")
        | .rewrote lines =>
            match ← writeCompose u faults.write lines with
            | some e => pure (false, "can't write " ++ u.composeFile ++ ": " ++ e)
            | none => pure (true, "ok")
  else pure (false, "invalid version format: " ++ u.repr version)

/-! ### The line it finds -/

section Scan

variable {u : Updater} {version : List Char}

/-- The indentation of the last header. -/
def indentAfter (u : Updater) (start : Option Nat) (lines : List (List Char)) : Option Nat :=
  lines.foldl (fun indent ln => if isHeader u.serviceName ln then some (indentOf ln) else indent)
    start

/-- The line is the first image line behind a header, and no sibling begins before it. -/
structure Finds (u : Updater) (start : Option Nat) (above : List (List Char)) (ln : List Char)
    (m : ImageLine) : Prop where
  notHeader : isHeader u.serviceName ln = false
  inside : ∃ k, indentAfter u start above = some k ∧ bails k ln = false
  image : matchImage ln = some m
  first : ∀ pre x post k, above = pre ++ x :: post → isHeader u.serviceName x = false →
    indentAfter u start pre = some k → bails k x = false ∧ matchImage x = none

/-- The loop goes past a line. -/
inductive Skips (u : Updater) : Option Nat → List Char → Option Nat → Prop where
  | header {start : Option Nat} {x : List Char} (h : isHeader u.serviceName x = true) :
      Skips u start x (some (indentOf x))
  | outside {x : List Char} (h : isHeader u.serviceName x = false) : Skips u none x none
  | inside {k : Nat} {x : List Char} (h : isHeader u.serviceName x = false)
      (goesOn : bails k x = false) (other : matchImage x = none) : Skips u (some k) x (some k)

theorem Skips.pinLines {start next : Option Nat} {x : List Char} (h : Skips u start x next)
    (lines : List (List Char)) :
    pinLines u version start (x :: lines) = (pinLines u version next lines).below x := by
  cases h with
  | header h => cases start <;> rw [Update.pinLines, if_pos h]
  | outside h => rw [Update.pinLines, if_neg (by simp [h])]
  | inside h goesOn other =>
      rw [Update.pinLines, if_neg (by simp [h]), if_neg (by simp [goesOn]), other]

theorem Skips.indentAfter {start next : Option Nat} {x : List Char} (h : Skips u start x next)
    (lines : List (List Char)) :
    indentAfter u start (x :: lines) = indentAfter u next lines := by
  unfold Update.indentAfter
  rw [List.foldl_cons]
  cases h with
  | header h => rw [if_pos h]
  | outside h => rw [if_neg (by simp [h])]
  | inside h goesOn other => rw [if_neg (by simp [h])]

theorem Finds.cons {start next : Option Nat} {above : List (List Char)} {x ln : List Char}
    {m : ImageLine} (hx : Skips u start x next) (h : Finds u next above ln m) :
    Finds u start (x :: above) ln m where
  notHeader := h.notHeader
  inside := by
    rw [hx.indentAfter]
    exact h.inside
  image := h.image
  first := by
    intro pre y post k hEq hHeader hIndent
    cases pre with
    | nil =>
        obtain rfl : x = y := (List.cons.inj hEq).1
        obtain rfl : start = some k := hIndent
        cases hx with
        | header hIs => rw [hIs] at hHeader; cases hHeader
        | inside _ goesOn other => exact ⟨goesOn, other⟩
    | cons z pre =>
        obtain ⟨rfl, hAbove⟩ := List.cons.inj hEq
        rw [hx.indentAfter] at hIndent
        exact h.first pre y post k hAbove hHeader hIndent

theorem Finds.uncons {start : Option Nat} {above : List (List Char)} {x ln : List Char}
    {m : ImageLine} (h : Finds u start (x :: above) ln m) :
    ∃ next, Skips u start x next ∧ Finds u next above ln m := by
  have hSkip : ∃ next, Skips u start x next := by
    cases hHeader : isHeader u.serviceName x with
    | true => exact ⟨_, .header hHeader⟩
    | false =>
        cases start with
        | none => exact ⟨_, .outside hHeader⟩
        | some k =>
            obtain ⟨goesOn, other⟩ := h.first [] x above k rfl hHeader rfl
            exact ⟨_, .inside hHeader goesOn other⟩
  obtain ⟨next, hx⟩ := hSkip
  refine ⟨next, hx, h.notHeader, ?_, h.image, fun pre y post k hEq hHeader hIndent => ?_⟩
  · rw [← hx.indentAfter]
    exact h.inside
  · rw [← hx.indentAfter] at hIndent
    exact h.first (x :: pre) y post k (by rw [hEq]; rfl) hHeader hIndent

/-- The loop rewrites the line that it finds. -/
theorem Finds.pinLines {start : Option Nat} {above : List (List Char)} {ln : List Char}
    {m : ImageLine} (h : Finds u start above ln m) (below : List (List Char)) :
    pinLines u version start (above ++ ln :: below) =
      if newRef version m.ref = m.ref then .noop
      else .rewrote (above ++ m.rewrite version :: below) := by
  induction above generalizing start with
  | nil =>
      obtain ⟨k, hStart, goesOn⟩ := h.inside
      obtain rfl : start = some k := hStart
      rw [List.nil_append, Update.pinLines, if_neg (by simp [h.notHeader]),
        if_neg (by simp [goesOn]), h.image]
      rfl
  | cons x above ih =>
      obtain ⟨next, hx, hAbove⟩ := h.uncons
      rw [List.cons_append, hx.pinLines, ih hAbove]
      split_ifs
      · rfl
      · rfl

/-- It finds a line, or nothing changes. -/
theorem finds_or_missing (u : Updater) (version : List Char) (start : Option Nat)
    (lines : List (List Char)) :
    pinLines u version start lines = .missing ∨
      ∃ above ln below m, lines = above ++ ln :: below ∧ Finds u start above ln m := by
  induction lines generalizing start with
  | nil => exact Or.inl rfl
  | cons x lines ih =>
      have hPast : ∀ next, Skips u start x next → pinLines u version start (x :: lines) = .missing ∨
          ∃ above ln below m, x :: lines = above ++ ln :: below ∧ Finds u start above ln m := by
        intro next hx
        rcases ih next with hMissing | ⟨above, ln, below, m, rfl, h⟩
        · left
          rw [hx.pinLines, hMissing]
          rfl
        · exact Or.inr ⟨x :: above, ln, below, m, rfl, h.cons hx⟩
      cases hHeader : isHeader u.serviceName x with
      | true => exact hPast _ (.header hHeader)
      | false =>
          cases start with
          | none => exact hPast _ (.outside hHeader)
          | some k =>
              cases goesOn : bails k x with
              | true =>
                  left
                  rw [Update.pinLines, if_neg (by simp [hHeader]), if_pos goesOn]
              | false =>
                  cases image : matchImage x with
                  | none => exact hPast _ (.inside hHeader goesOn image)
                  | some m =>
                      refine Or.inr ⟨[], x, lines, m, rfl, hHeader, ⟨k, rfl, goesOn⟩, image, ?_⟩
                      intro pre y post j hEq
                      simp at hEq

end Scan

end WattPost.Update
