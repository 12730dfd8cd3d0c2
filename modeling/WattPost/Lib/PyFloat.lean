import WattPost.Lib.Binary64

/-! Python numbers that need not be finite, and the values of a dictionary that
holds them. A finite float stands for the rational it is, and the two zeros for one;
what is computed is rounded to the nearest double. The infinities and the `nan`
follow IEEE 754, and an integer that no float can hold makes `float` raise. -/

inductive PyFloat where
  | finite (q : ℚ)
  | infinite (negative : Bool)
  | nan
deriving DecidableEq

namespace PyFloat

/-- From this magnitude on a number rounds beyond the largest double. -/
def overflow : Nat := 2 ^ 1024 - 2 ^ 970

/-- The float of a result or of a literal: beyond the range it is an infinity. -/
def ofRat (q : ℚ) : PyFloat :=
  if |q| < overflow then finite (Binary64.nearest q) else infinite (q < 0)

/-- `float(n)`; `none` is the `OverflowError`. -/
def ofInt (n : Int) : Option PyFloat :=
  if n.natAbs < overflow then some (.finite (Binary64.nearest n)) else none

/-- `x < y`. -/
def lt : PyFloat → PyFloat → Bool
  | nan, _ => false
  | _, nan => false
  | finite a, finite b => a < b
  | infinite s, infinite t => s && !t
  | infinite s, finite _ => s
  | finite _, infinite t => !t

/-- `x <= y`. -/
def le (x y : PyFloat) : Bool := x ≠ nan && y ≠ nan && !lt y x

/-- `x - y`. -/
def sub : PyFloat → PyFloat → PyFloat
  | nan, _ => nan
  | _, nan => nan
  | finite a, finite b => ofRat (a - b)
  | infinite s, infinite t => if s = t then nan else infinite s
  | infinite s, finite _ => infinite s
  | finite _, infinite t => infinite (!t)

/-- `-x`. -/
def neg : PyFloat → PyFloat
  | nan => nan
  | finite q => finite (-q)
  | infinite s => infinite (!s)

/-- `x + y`. -/
def add (x y : PyFloat) : PyFloat := x.sub y.neg

/-- `x * y`. -/
def mul : PyFloat → PyFloat → PyFloat
  | nan, _ => nan
  | _, nan => nan
  | finite a, finite b => ofRat (a * b)
  | infinite s, infinite t => infinite (s != t)
  | infinite s, finite q => if q = 0 then nan else infinite (s != decide (q < 0))
  | finite q, infinite s => if q = 0 then nan else infinite (s != decide (q < 0))

/-- `x / y` for a `y` that is not zero. -/
def div : PyFloat → PyFloat → PyFloat
  | nan, _ => nan
  | _, nan => nan
  | finite a, finite b => ofRat (a / b)
  | infinite s, finite q => infinite (s != decide (q < 0))
  | finite _, infinite _ => finite 0
  | infinite _, infinite _ => nan

/-- `abs(x)`. -/
def abs : PyFloat → PyFloat
  | nan => nan
  | finite q => finite |q|
  | infinite _ => infinite false

/-- `round(x, digits)`: the decimal number is the nearest of the exact value. -/
def round (x : PyFloat) (digits : Nat) : PyFloat :=
  match x with
  | finite q => ofRat (PyDict.round q digits)
  | x => x

/-- `sum(xs)`, from left to right. -/
def sum (xs : List PyFloat) : PyFloat := xs.foldl add (finite 0)

/-- `min(xs)`: a later item wins when it is smaller. -/
def minOf : List PyFloat → Option PyFloat
  | [] => none
  | x :: xs => some (xs.foldl (fun m y => if lt y m then y else m) x)

/-- `max(xs)`. -/
def maxOf : List PyFloat → Option PyFloat
  | [] => none
  | x :: xs => some (xs.foldl (fun m y => if lt m y then y else m) x)

/-- `int(x)`; an infinity or `nan` raises. -/
def toInt : PyFloat → Option Int
  | finite q => some (q.num.tdiv q.den)
  | _ => none

/-- `float(s)` of a text without blanks around it, in decimal notation with an
exponent or without. -/
def ofText (s : String) : Option PyFloat :=
  let cs := (PyText.lower s).toList
  let mantissa := PyText.toFloat (String.ofList (cs.takeWhile (· != 'e')))
  let exponent :=
    match cs.dropWhile (· != 'e') with
    | [] => some 0
    | _ :: digits => PyText.toInt (String.ofList digits)
  mantissa.bind fun q => exponent.map fun n => ofRat (q * (10 : ℚ) ^ n)

/-! ### How a float is written -/

/-- The shortest digits that are read as this double, and the power of ten of the last one. -/
def shortest (q : ℚ) : Nat × Int :=
  let e := Int.log 10 q
  let place (k : Nat) : Int := e + 1 - k
  let digits (k : Nat) : Nat := (PyDict.roundHalfEven (q / 10 ^ place k)).toNat
  let reads (k : Nat) : Bool := Binary64.nearest (digits k * 10 ^ place k) = q
  let k := ((List.range' 1 17).find? reads).getD 17
  (digits k, place k)

/-- `repr(q)` of a positive double: digits with a point, or with an exponent where the point
would stand far from them. -/
def reprPositive (q : ℚ) : String :=
  let (n, place) := shortest q
  let all := (toString n).toList
  let point : Int := all.length + place
  let digits := PyText.rstripBy (· = '0') all
  let zeros (k : Int) : List Char := List.replicate k.toNat '0'
  String.ofList <|
    if -4 < point ∧ point ≤ 16 then
      if point ≤ 0 then '0' :: '.' :: zeros (-point) ++ digits
      else if digits.length ≤ point then digits ++ zeros (point - digits.length) ++ ['.', '0']
      else digits.take point.toNat ++ '.' :: digits.drop point.toNat
    else
      let fraction := if digits.length = 1 then [] else '.' :: digits.tail
      let exponent := (toString (point - 1).natAbs).toList
      digits.take 1 ++ fraction ++ ['e', if point ≤ 0 then '-' else '+'] ++
        zeros (2 - exponent.length) ++ exponent

/-- `repr(x)` of a finite float, and the names that JSON has for the others. -/
def json : PyFloat → String
  | nan => "NaN"
  | infinite s => if s then "-Infinity" else "Infinity"
  | finite q =>
      if q = 0 then "0.0" else if q < 0 then "-" ++ reprPositive (-q) else reprPositive q

theorem ofRat_ne_nan (q : ℚ) : ofRat q ≠ nan := by
  rw [ofRat]
  split_ifs <;> simp

/-- What is no infinity is the nearest double. -/
theorem ofRat_eq_finite {q x : ℚ} (h : ofRat q = .finite x) :
    |q| < overflow ∧ x = Binary64.nearest q := by
  rw [ofRat] at h
  split_ifs at h with hRange
  exact ⟨hRange, (PyFloat.finite.inj h).symm⟩

/-- A number that is not tiny keeps half of itself. -/
theorem half_le_of_ofRat {q x : ℚ} (hx : ofRat q = .finite x) (h : 2 ^ (-1074 : Int) ≤ |q|) :
    |q| / 2 ≤ |x| := by
  rw [(ofRat_eq_finite hx).2]
  exact Binary64.half_le_abs_nearest h

theorem ofRat_ne_zero {q : ℚ} (h : 2 ^ (-1074 : Int) ≤ |q|) : ofRat q ≠ .finite 0 := by
  intro hZero
  have hHalf := half_le_of_ofRat hZero h
  have hPos : (0 : ℚ) < |q| := (zpow_pos two_pos _).trans_le h
  rw [abs_zero] at hHalf
  linarith

/-- A number in the range is rounded to a double. -/
theorem ofRat_small {q : ℚ} (h : |q| ≤ 2 ^ 53) : ofRat q = .finite (Binary64.nearest q) := by
  have hOverflow : (2 : ℚ) ^ 53 < overflow := by
    exact_mod_cast (show 2 ^ 53 < overflow by decide +kernel)
  exact if_pos (h.trans_lt hOverflow)

/-- The smallest of some floats is one of them. -/
theorem foldl_min_mem (x : PyFloat) (xs : List PyFloat) :
    xs.foldl (fun m y => if lt y m then y else m) x ∈ x :: xs := by
  induction xs generalizing x with
  | nil => exact List.mem_singleton_self x
  | cons y xs ih =>
      rw [List.foldl_cons]
      split_ifs
      · exact List.mem_cons_of_mem _ (ih y)
      · exact List.mem_cons.mpr ((List.mem_cons.mp (ih x)).imp_right (List.mem_cons_of_mem _))

/-- So is the largest. -/
theorem foldl_max_mem (x : PyFloat) (xs : List PyFloat) :
    xs.foldl (fun m y => if lt m y then y else m) x ∈ x :: xs := by
  induction xs generalizing x with
  | nil => exact List.mem_singleton_self x
  | cons y xs ih =>
      rw [List.foldl_cons]
      split_ifs
      · exact List.mem_cons_of_mem _ (ih y)
      · exact List.mem_cons.mpr ((List.mem_cons.mp (ih x)).imp_right (List.mem_cons_of_mem _))

/-- No decimal notation spells `nan`. -/
theorem ofText_ne_nan (s : String) : ofText s ≠ some nan := by
  intro h
  simp only [ofText, Option.bind_eq_some_iff, Option.map_eq_some_iff] at h
  obtain ⟨q, _, n, _, h⟩ := h
  exact ofRat_ne_nan _ h

end PyFloat

/-- A Python text: one that has a UTF-8 form, or one with a lone surrogate. -/
inductive PyStr where
  | utf8 (s : String)
  | surrogates
deriving DecidableEq

/-- A value of a result dictionary. -/
inductive PyScalar where
  | none
  | bool (b : Bool)
  | int (n : Int)
  | float (x : PyFloat)
  | text (s : PyStr)
  | list (items : List String)
deriving DecidableEq

namespace PyScalar

/-- `float(v)` of a number that is no bool; the outer `none` is an error. -/
def number : PyScalar → Option (Option PyFloat)
  | int n => (PyFloat.ofInt n).map some
  | float x => some (some x)
  | _ => some Option.none

/-- The value as a float, where it is finite. -/
def finiteValue : PyScalar → Option ℚ
  | int n => if n.natAbs < PyFloat.overflow then some (Binary64.nearest n) else Option.none
  | float (.finite q) => some q
  | _ => Option.none

end PyScalar
