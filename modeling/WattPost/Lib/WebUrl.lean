import Mathlib.Data.List.DropRight

/-! How a browser reads a URL reference on a page of a web server: to which origin it leads,
by the states of the URL standard's parser. The parser of host names is a parameter. -/
namespace WebUrl

inductive Scheme where
  | http
  | https
deriving DecidableEq

def Scheme.name : Scheme → List Char
  | http => "http".toList
  | https => "https".toList

def Scheme.defaultPort : Scheme → Nat
  | http => 80
  | https => 443

structure Origin where
  scheme : Scheme
  host : String
  port : Nat
deriving DecidableEq

/-! ### Characters -/

def isTabOrNewline (c : Char) : Bool := c = '\t' || c = '\n' || c = '\r'

def isControlOrSpace (c : Char) : Bool := c.toNat ≤ 0x20

/-- For the schemes of the web a backslash is a slash. -/
def isSlash (c : Char) : Bool := c = '/' || c = '\\'

/-- What ends the authority. -/
def endsAuthority (c : Char) : Bool := isSlash c || c = '?' || c = '#'

/-- What the parser does before it starts. -/
def clean (s : List Char) : List Char :=
  ((s.dropWhile isControlOrSpace).rdropWhile isControlOrSpace).filter (!isTabOrNewline ·)

/-! ### The states -/

section States

variable (hostParse : List Char → Option String)

/-- The port state. -/
def port (scheme : Scheme) (digits : List Char) : Option Nat :=
  if digits = [] then some scheme.defaultPort
  else if digits.all Char.isDigit then
    let n := Nat.ofDigitChars 10 digits 0
    if n ≤ 65535 then some n else none
  else none

/-- The host state: where the first colon outside of brackets stands. -/
def splitPort : Bool → List Char → List Char × Option (List Char)
  | _, [] => ([], none)
  | inBrackets, c :: rest =>
      if c = ':' ∧ !inBrackets then ([], some rest)
      else
        let inBrackets := if c = '[' then true else if c = ']' then false else inBrackets
        let split := splitPort inBrackets rest
        (c :: split.1, split.2)

/-- The authority state and those after it: user and password up to the last at sign,
then host and port. -/
def authority (scheme : Scheme) (s : List Char) : Option Origin :=
  let part := s.takeWhile (!endsAuthority ·)
  let hostPort := part.rtakeWhile (· ≠ '@')
  let split := splitPort false hostPort
  if split.1 = [] then none
  else do
    let host ← hostParse split.1
    let port ← port scheme (split.2.getD [])
    some ⟨scheme, host, port⟩

/-- The state that ignores slashes before the authority. -/
def ignoreSlashes (scheme : Scheme) (s : List Char) : Option Origin :=
  authority hostParse scheme (s.dropWhile isSlash)

variable (base : Origin)

/-- The relative slash state. -/
def relativeSlash : List Char → Option Origin
  | [] => some base
  | c :: rest => if isSlash c then ignoreSlashes hostParse base.scheme rest else some base

/-- The relative state. -/
def relative : List Char → Option Origin
  | [] => some base
  | c :: rest => if isSlash c then relativeSlash hostParse base rest else some base

/-- The scheme states: the scheme in front of a colon. -/
def schemeOf : List Char → Option (List Char × List Char)
  | [] => none
  | c :: rest =>
      let name := rest.takeWhile fun c => c.isAlphanum || c = '+' || c = '-' || c = '.'
      match rest.drop name.length with
      | ':' :: rest => if c.isAlpha then some ((c :: name).map Char.toLower, rest) else none
      | _ => none

/-- The origin that a reference leads to from a page of `base`; none, if it leads to no
web server. -/
def resolve (s : List Char) : Option Origin :=
  let s := clean s
  match schemeOf s with
  | none => relative hostParse base s
  | some (name, rest) =>
      if name = base.scheme.name then
        match rest with
        | '/' :: '/' :: rest => ignoreSlashes hostParse base.scheme rest
        | rest => relative hostParse base rest
      else if name = Scheme.http.name then ignoreSlashes hostParse .http rest
      else if name = Scheme.https.name then ignoreSlashes hostParse .https rest
      else none

/-! ### References that start with a slash -/

theorem rdropWhile_cons {p : Char → Bool} {c : Char} (h : p c = false) (s : List Char) :
    (c :: s).rdropWhile p = c :: s.rdropWhile p := by
  rw [List.rdropWhile, List.reverse_cons, List.dropWhile_append]
  split_ifs with hEmpty
  · rw [List.isEmpty_iff] at hEmpty
    rw [List.rdropWhile, hEmpty, List.dropWhile_cons_of_neg (by simp [h])]
    rfl
  · rw [List.reverse_append]
    rfl

/-- What is left behind a slash. -/
theorem clean_slash (s : List Char) :
    clean ('/' :: s) = '/' :: (s.rdropWhile isControlOrSpace).filter (!isTabOrNewline ·) := by
  have hKept : isControlOrSpace '/' = false := by decide
  rw [clean, List.dropWhile_cons_of_neg (by simp [hKept]), rdropWhile_cons hKept]
  rfl

/-- A reference that starts with a slash stays, unless another slash follows. -/
theorem resolve_slash (s : List Char) :
    resolve hostParse base ('/' :: s) =
      relativeSlash hostParse base
        ((s.rdropWhile isControlOrSpace).filter (!isTabOrNewline ·)) := by
  have hScheme : ∀ rest, schemeOf ('/' :: rest) = none := by
    intro rest
    unfold schemeOf
    dsimp only
    split
    · rfl
    · rfl
  rw [resolve, clean_slash]
  simp only [hScheme]
  rfl

end States

end WebUrl
