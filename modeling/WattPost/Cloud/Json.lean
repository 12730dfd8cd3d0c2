import Mathlib.Logic.Basic

/-! JSON values and the few things that Python does with them. -/
namespace WattPost.Cloud

/-- A JSON value, as `json.loads` returns it. -/
inductive Json where
  | null
  | bool (b : Bool)
  | int (n : Int)
  | float (literal : String)
  | str (s : String)
  | arr (values : List Json)
  | obj (fields : List (String × Json))

/-- `dict.get` on parsed fields: the last of several equal names counts. -/
def Json.get? (fields : List (String × Json)) (name : String) : Option Json :=
  (fields.reverse.find? (fun x => x.1 = name)).map Prod.snd

/-- A parsed object. -/
abbrev Fields := List (String × Json)

namespace Json

/-- The truth value of what `dict.get` returns; a missing field is `None`. The
literal of a float is its `repr`, so there are two zeros. -/
def truthy : Option Json → Bool
  | none => false
  | some .null => false
  | some (.bool b) => b
  | some (.int n) => n != 0
  | some (.float literal) => !(["0.0", "-0.0"].contains literal)
  | some (.str s) => s != ""
  | some (.arr values) => !values.isEmpty
  | some (.obj fields) => !fields.isEmpty

/-- `isinstance(x, int)`, and then its value: a Python bool is an int. -/
def intValue : Option Json → Option Int
  | some (.int n) => some n
  | some (.bool b) => some (if b then 1 else 0)
  | _ => none

/-- `isinstance(x, str)`, and then its value. -/
def strValue : Option Json → Option String
  | some (.str s) => some s
  | _ => none

mutual

/-- Whether two parsed values are the same. -/
def same : Json → Json → Bool
  | .null, .null => true
  | .bool a, .bool b => a == b
  | .int a, .int b => a == b
  | .float a, .float b => a == b
  | .str a, .str b => a == b
  | .arr xs, .arr ys => sameList xs ys
  | .obj xs, .obj ys => sameFields xs ys
  | _, _ => false

def sameList : List Json → List Json → Bool
  | [], [] => true
  | x :: xs, y :: ys => same x y && sameList xs ys
  | _, _ => false

def sameFields : List (String × Json) → List (String × Json) → Bool
  | [], [] => true
  | (m, x) :: xs, (n, y) :: ys => m == n && same x y && sameFields xs ys
  | _, _ => false

end

mutual

theorem same_iff : ∀ a b : Json, same a b = true ↔ a = b
  | .null, b => by cases b <;> simp [same]
  | .bool _, b => by cases b <;> simp [same]
  | .int _, b => by cases b <;> simp [same]
  | .float _, b => by cases b <;> simp [same]
  | .str _, b => by cases b <;> simp [same]
  | .arr xs, b => by cases b <;> simp [same, sameList_iff xs]
  | .obj xs, b => by cases b <;> simp [same, sameFields_iff xs]

theorem sameList_iff : ∀ xs ys : List Json, sameList xs ys = true ↔ xs = ys
  | [], ys => by cases ys <;> simp [sameList]
  | x :: xs, ys => by cases ys <;> simp [sameList, same_iff x, sameList_iff xs]

theorem sameFields_iff : ∀ xs ys : List (String × Json), sameFields xs ys = true ↔ xs = ys
  | [], ys => by cases ys <;> simp [sameFields]
  | (m, x) :: xs, ys => by
      cases ys with
      | nil => simp [sameFields]
      | cons y ys => simp [sameFields, same_iff x, sameFields_iff xs, Prod.ext_iff]

end

instance : DecidableEq Json := fun a b => decidable_of_iff _ (same_iff a b)

/-- A number as Python compares it: a bool is an int, and a float with an
integral value below 10^16 is written with a point and a zero. -/
def numberText : Json → Option String
  | .bool b => some (if b then "1.0" else "0.0")
  | .int n => some (toString n ++ ".0")
  | .float literal => some (if literal = "-0.0" then "0.0" else literal)
  | _ => none

mutual

/-- `a == b`. -/
def pyEq : Json → Json → Bool
  | .null, .null => true
  | .str a, .str b => a == b
  | .arr xs, .arr ys => pyEqList xs ys
  | .obj xs, .obj ys => xs.length == ys.length && pyEqFields xs ys
  | a, b =>
      match numberText a, numberText b with
      | some s, some t => s == t && s != "nan"
      | _, _ => false

def pyEqList : List Json → List Json → Bool
  | [], [] => true
  | x :: xs, y :: ys => pyEq x y && pyEqList xs ys
  | _, _ => false

/-- Every field on the left has an equal one on the right. -/
def pyEqFields : List (String × Json) → List (String × Json) → Bool
  | [], _ => true
  | (name, x) :: xs, ys =>
      (match get? ys name with
        | some y => pyEq x y
        | none => false) && pyEqFields xs ys

end

/-- `a == b` where either may be a missing field, which is `None`. -/
def fieldEq (a b : Option Json) : Bool := pyEq (a.getD .null) (b.getD .null)

/-- Only a string equals a string. -/
theorem pyEq_str {s : String} {j : Json} : pyEq j (.str s) = true ↔ j = .str s := by
  cases j <;> simp [pyEq, numberText]

theorem fieldEq_str {s : String} {j : Option Json} :
    fieldEq j (some (.str s)) = true ↔ j = some (.str s) := by
  cases j with
  | none => simp [fieldEq, pyEq_str]
  | some j => simp [fieldEq, pyEq_str]

end Json

end WattPost.Cloud
