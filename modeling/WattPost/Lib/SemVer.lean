import Mathlib.Data.List.Lex
import Mathlib.Data.Prod.Lex
import Mathlib.Data.String.Basic
import Mathlib.Data.Sum.Order
import Mathlib.Order.WithBot
import WattPost.Lib.PyText

/-! The precedence of semantic versions. The three numbers count first; then a
release comes after its pre-releases, and those compare by their identifiers, of
which the numeric ones come before the others. -/
namespace SemVer

/-- An identifier of a pre-release: a number, or a text in the order of its characters. -/
abbrev Identifier := ℕ ⊕ₗ List Char

def identifier (cs : List Char) : Identifier :=
  match PyText.digitsValue cs with
  | some n => toLex (Sum.inl n)
  | none => toLex (Sum.inr cs)

abbrev Precedence := ℕ ×ₗ ℕ ×ₗ ℕ ×ₗ WithTop (List Identifier)

/-- The identifiers of a pre-release; a release has none and comes last. -/
def preRelease (pre : Option (List (List Char))) : WithTop (List Identifier) :=
  pre.elim ⊤ fun ids => ((ids.map identifier : List Identifier) : WithTop (List Identifier))

def precedence (major minor patch : ℕ) (pre : Option (List (List Char))) : Precedence :=
  toLex (major, toLex (minor, toLex (patch, preRelease pre)))

section Order

variable {major minor patch major' minor' patch' : ℕ} {pre pre' : Option (List (List Char))}

theorem precedence_lt_iff :
    precedence major minor patch pre < precedence major' minor' patch' pre' ↔
      major < major' ∨ major = major' ∧ (minor < minor' ∨ minor = minor' ∧
        (patch < patch' ∨ patch = patch' ∧ preRelease pre < preRelease pre')) := by
  simp only [precedence, Prod.Lex.toLex_lt_toLex]

/-- A release has no successor among the versions of its numbers. -/
theorem preRelease_none_not_lt : ¬ preRelease none < preRelease pre := not_top_lt

theorem preRelease_some_lt_none (ids : List (List Char)) :
    preRelease (some ids) < preRelease none := WithTop.coe_lt_top _

theorem preRelease_some_lt_some {ids ids' : List (List Char)} :
    preRelease (some ids) < preRelease (some ids') ↔
      ids.map identifier < ids'.map identifier := WithTop.coe_lt_coe

end Order

end SemVer
