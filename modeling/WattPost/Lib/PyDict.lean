import Mathlib.Algebra.Order.Floor.Defs
import Mathlib.Data.List.Nodup
import Mathlib.Data.Rat.Floor
import Mathlib.Tactic.Positivity
import WattPost.Lib.PyText

/-! Python dictionaries with text keys, in insertion order, and the values that
are read from them as numbers. A float is the rational it stands for. -/
namespace PyDict

/-- A dictionary: its entries in insertion order, no key twice. -/
structure Dict (α : Type) where
  entries : List (String × α)
  nodup : (entries.map Prod.fst).Nodup
deriving DecidableEq

/-- `entries[k] = v`: in place when the key is there, else at the end. -/
def setEntry {α : Type} (k : String) (v : α) : List (String × α) → List (String × α)
  | [] => [(k, v)]
  | e :: rest => if e.1 = k then (k, v) :: rest else e :: setEntry k v rest

section Entries

variable {α : Type}

theorem mem_keys_setEntry {k k' : String} {v : α} {xs : List (String × α)} :
    k' ∈ (setEntry k v xs).map Prod.fst ↔ k' = k ∨ k' ∈ xs.map Prod.fst := by
  induction xs with
  | nil => simp [setEntry]
  | cons e rest ih =>
      unfold setEntry
      split
      case isTrue h =>
        simp only [List.map_cons, List.mem_cons, h]
        tauto
      case isFalse =>
        simp only [List.map_cons, List.mem_cons, ih]
        tauto

theorem nodup_setEntry {k : String} {v : α} {xs : List (String × α)}
    (h : (xs.map Prod.fst).Nodup) : ((setEntry k v xs).map Prod.fst).Nodup := by
  induction xs with
  | nil => simp [setEntry]
  | cons e rest ih =>
      obtain ⟨hNotMem, hRest⟩ := List.nodup_cons.mp h
      unfold setEntry
      split
      case isTrue hk => exact hk ▸ h
      case isFalse hk =>
        refine List.nodup_cons.mpr ⟨?_, ih hRest⟩
        intro hMem
        rcases mem_keys_setEntry.mp hMem with hEq | hOld
        · exact hk hEq
        · exact hNotMem hOld

theorem lookup_cons_ite (e : String × α) (xs : List (String × α)) (k : String) :
    (e :: xs).lookup k = if k = e.1 then some e.2 else xs.lookup k := by
  rw [List.lookup_cons]
  by_cases h : k = e.1
  · simp [h]
  · have hBeq : (k == e.1) = false := by simp [h]
    simp [h, hBeq]

theorem lookup_setEntry (k k' : String) (v : α) (xs : List (String × α)) :
    (setEntry k v xs).lookup k' = if k' = k then some v else xs.lookup k' := by
  induction xs with
  | nil => exact lookup_cons_ite (k, v) [] k'
  | cons e rest ih =>
      unfold setEntry
      split
      case isTrue hk =>
        rw [lookup_cons_ite, lookup_cons_ite, hk]
        split <;> rfl
      case isFalse hk =>
        rw [lookup_cons_ite, lookup_cons_ite, ih]
        by_cases h : k' = k
        · have hNe : k' ≠ e.1 := fun hEq => hk (hEq.symm.trans h)
          rw [if_neg hNe, if_pos h, if_pos h]
        · rw [if_neg h, if_neg h]

theorem length_setEntry_le {k : String} {v : α} {xs : List (String × α)} :
    (setEntry k v xs).length ≤ xs.length + 1 := by
  induction xs with
  | nil => simp [setEntry]
  | cons e rest ih =>
      unfold setEntry
      split
      · simp
      · simp only [List.length_cons]
        omega

end Entries

namespace Dict

variable {α : Type}

def empty : Dict α := ⟨[], List.nodup_nil⟩

/-- `d.get(k)`. -/
def get (d : Dict α) (k : String) : Option α := d.entries.lookup k

def keys (d : Dict α) : List String := d.entries.map Prod.fst

/-- `d[k] = v`. -/
def set (d : Dict α) (k : String) (v : α) : Dict α :=
  ⟨setEntry k v d.entries, nodup_setEntry d.nodup⟩

/-- `if v is not None: d[k] = v`. -/
def setSome (d : Dict α) (k : String) : Option α → Dict α
  | none => d
  | some v => d.set k v

/-- `d.setdefault(k, v)`. -/
def setDefault (d : Dict α) (k : String) (v : α) : Dict α :=
  match d.get k with
  | none => d.set k v
  | some _ => d

/-- `for k, v in xs: d[k] = v`. -/
def setAll (d : Dict α) (xs : List (String × α)) : Dict α :=
  xs.foldl (fun d e => d.set e.1 e.2) d

def ofList (xs : List (String × α)) : Dict α := empty.setAll xs

/-- `d.update(e)`. -/
def update (d e : Dict α) : Dict α := d.setAll e.entries

/-- The entries whose key is kept. -/
def filter (d : Dict α) (p : String → Bool) : Dict α where
  entries := d.entries.filter fun e => p e.1
  nodup := (d.nodup.sublist (List.filter_sublist.map Prod.fst))

/-- `{k: f(v) for k, v in d.items()}`. -/
def map {β : Type} (f : α → β) (d : Dict α) : Dict β where
  entries := d.entries.map fun e => (e.1, f e.2)
  nodup := by
    rw [List.map_map]
    exact d.nodup

@[simp] theorem get_empty (k : String) : (empty : Dict α).get k = none := rfl

@[simp] theorem get_set (d : Dict α) (k k' : String) (v : α) :
    (d.set k v).get k' = if k' = k then some v else d.get k' := lookup_setEntry k k' v d.entries

@[simp] theorem get_setSome (d : Dict α) (k k' : String) (v : Option α) :
    (d.setSome k v).get k' = if k' = k then v.or (d.get k') else d.get k' := by
  cases v with
  | none => simp [setSome]
  | some v => simp [setSome]

theorem get_setAll_of_notMem {xs : List (String × α)} {k : String}
    (h : k ∉ xs.map Prod.fst) (d : Dict α) : (d.setAll xs).get k = d.get k := by
  induction xs generalizing d with
  | nil => rfl
  | cons e xs ih =>
      rw [List.map_cons, List.mem_cons, not_or] at h
      obtain ⟨hHead, hTail⟩ := h
      have hStep := ih hTail (d.set e.1 e.2)
      simp only [setAll, List.foldl_cons] at hStep ⊢
      rw [hStep, get_set, if_neg hHead]

/-- Of entries with distinct keys the last word is theirs. -/
theorem get_setAll {xs : List (String × α)} (h : (xs.map Prod.fst).Nodup) (d : Dict α)
    (k : String) : (d.setAll xs).get k = (xs.lookup k).or (d.get k) := by
  induction xs generalizing d with
  | nil => rfl
  | cons e xs ih =>
      obtain ⟨hNotMem, hRest⟩ := List.nodup_cons.mp h
      have hStep := ih hRest (d.set e.1 e.2)
      simp only [setAll, List.foldl_cons] at hStep ⊢
      rw [hStep, get_set, lookup_cons_ite]
      by_cases hk : k = e.1
      · have hLookup : xs.lookup k = none := by
          rw [List.lookup_eq_none_iff]
          intro p hp
          have hNe : p.1 ≠ e.1 := fun hEq => hNotMem (hEq ▸ List.mem_map_of_mem hp)
          simpa [hk] using Ne.symm hNe
        rw [hLookup, if_pos hk, if_pos hk]
        rfl
      · rw [if_neg hk, if_neg hk]

@[simp] theorem get_update (d e : Dict α) (k : String) :
    (d.update e).get k = (e.get k).or (d.get k) := get_setAll e.nodup d k

/-- A key keeps its place, and a new one comes last. -/
theorem keys_set (d : Dict α) (k : String) (v : α) :
    (d.set k v).keys = if k ∈ d.keys then d.keys else d.keys ++ [k] := by
  change (setEntry k v d.entries).map Prod.fst =
    if k ∈ d.entries.map Prod.fst then d.entries.map Prod.fst else d.entries.map Prod.fst ++ [k]
  induction d.entries with
  | nil => rfl
  | cons e rest ih =>
      unfold setEntry
      by_cases hKey : e.1 = k
      · simp [hKey]
      · simp only [if_neg hKey, List.map_cons, ih, List.mem_cons, Ne.symm hKey, false_or]
        split_ifs <;> rfl

/-- A loop that only sets keys with a common start leaves the others alone. -/
theorem get_setAll_of_startsWith {xs : List (String × α)} {p k : String}
    (hKeys : ∀ e ∈ xs, PyText.startsWith e.1 p = true) (hk : PyText.startsWith k p = false)
    (d : Dict α) : (d.setAll xs).get k = d.get k := by
  apply get_setAll_of_notMem
  intro hMem
  obtain ⟨e, he, rfl⟩ := List.mem_map.mp hMem
  rw [hKeys e he] at hk
  cases hk

theorem get_setDefault_of_ne {k k' : String} (h : k' ≠ k) (d : Dict α) (v : α) :
    (d.setDefault k v).get k' = d.get k' := by
  unfold setDefault
  split
  · rw [get_set, if_neg h]
  · rfl

theorem get_setDefault_self (d : Dict α) (k : String) (v : α) :
    (d.setDefault k v).get k = (d.get k).or (some v) := by
  unfold setDefault
  split
  case h_1 hNone => simp [hNone]
  case h_2 old hOld => simp [hOld]

theorem mem_iff_get {d : Dict α} {k : String} {v : α} :
    (k, v) ∈ d.entries ↔ d.get k = some v := by
  obtain ⟨entries, hNodup⟩ := d
  unfold get
  induction entries with
  | nil => simp
  | cons e rest ih =>
      obtain ⟨hNotMem, hRest⟩ := List.nodup_cons.mp hNodup
      rw [List.mem_cons, lookup_cons_ite]
      by_cases hk : k = e.1
      · have hNone : (k, v) ∉ rest := by
          intro hMem
          exact hNotMem (hk ▸ List.mem_map_of_mem hMem)
        rw [if_pos hk, Option.some.injEq]
        constructor
        · rintro (hEq | hMem)
          · rw [← hEq]
          · exact absurd hMem hNone
        · intro hv
          exact Or.inl (Prod.ext hk hv.symm)
      · rw [if_neg hk, ih hRest]
        constructor
        · rintro (hEq | hGet)
          · exact absurd (congrArg Prod.fst hEq) hk
          · exact hGet
        · exact Or.inr

theorem get_eq_none_iff {d : Dict α} {k : String} : d.get k = none ↔ k ∉ d.keys := by
  constructor
  · intro h hMem
    obtain ⟨e, he, hk⟩ := List.mem_map.mp hMem
    have hGet := mem_iff_get.mp (show (e.1, e.2) ∈ d.entries from he)
    rw [hk, h] at hGet
    cases hGet
  · intro h
    match hGet : d.get k with
    | none => rfl
    | some v => exact absurd (List.mem_map_of_mem (mem_iff_get.mpr hGet)) h

/-- A key has one entry. -/
theorem filter_key {d : Dict α} {k : String} {v : α} (h : d.get k = some v) :
    d.entries.filter (fun e => e.1 = k) = [(k, v)] := by
  obtain ⟨entries, hNodup⟩ := d
  unfold get at h
  induction entries with
  | nil => cases h
  | cons e rest ih =>
      obtain ⟨hNotMem, hRest⟩ := List.nodup_cons.mp hNodup
      rw [lookup_cons_ite] at h
      by_cases hk : k = e.1
      · rw [if_pos hk] at h
        cases h
        have hNil : rest.filter (fun e => decide (e.1 = k)) = [] := by
          rw [List.filter_eq_nil_iff]
          intro x hx hEq
          exact hNotMem (List.mem_map.mpr ⟨x, hx, (of_decide_eq_true hEq).trans hk⟩)
        subst hk
        exact (List.filter_cons_of_pos (by simp)).trans (congrArg (e :: ·) hNil)
      · rw [if_neg hk] at h
        exact (List.filter_cons_of_neg (by simpa using Ne.symm hk)).trans (ih hRest h)

@[simp] theorem get_filter (d : Dict α) (p : String → Bool) (k : String) :
    (d.filter p).get k = if p k then d.get k else none := by
  change (d.entries.filter fun e => p e.1).lookup k = if p k then d.entries.lookup k else none
  generalize d.entries = entries
  induction entries with
  | nil => simp
  | cons e rest ih =>
      rw [lookup_cons_ite, List.filter_cons]
      by_cases hp : p e.1 = true
      · rw [if_pos hp, lookup_cons_ite, ih]
        by_cases hk : k = e.1
        · simp [hk, hp]
        · simp [hk]
      · rw [if_neg hp, ih]
        by_cases hk : k = e.1
        · simp [hk, hp]
        · simp [hk]

@[simp] theorem get_map {β : Type} (f : α → β) (d : Dict α) (k : String) :
    (d.map f).get k = (d.get k).map f := by
  change (d.entries.map fun e => (e.1, f e.2)).lookup k = (d.entries.lookup k).map f
  generalize d.entries = entries
  induction entries with
  | nil => rfl
  | cons e rest ih =>
      rw [List.map_cons, lookup_cons_ite, lookup_cons_ite, ih]
      split_ifs <;> rfl

@[simp] theorem mem_keys_filter {d : Dict α} {p : String → Bool} {k : String} :
    k ∈ (d.filter p).keys ↔ k ∈ d.keys ∧ p k = true := by
  simp only [keys, filter, List.mem_map, List.mem_filter]
  constructor
  · rintro ⟨e, ⟨he, hp⟩, rfl⟩
    exact ⟨⟨e, he, rfl⟩, hp⟩
  · rintro ⟨⟨e, he, rfl⟩, hp⟩
    exact ⟨e, ⟨he, hp⟩, rfl⟩

theorem get_ofList {xs : List (String × α)} (h : (xs.map Prod.fst).Nodup) {k : String}
    {v : α} : (ofList xs).get k = some v ↔ (k, v) ∈ xs := by
  rw [ofList, get_setAll h, get_empty, Option.or_none]
  exact (mem_iff_get (d := ⟨xs, h⟩)).symm

/-- A new key adds one entry, an old one none. -/
theorem length_set_le (d : Dict α) (k : String) (v : α) :
    (d.set k v).entries.length ≤ d.entries.length + 1 := length_setEntry_le

theorem length_setAll_le (d : Dict α) (xs : List (String × α)) :
    (d.setAll xs).entries.length ≤ d.entries.length + xs.length := by
  induction xs generalizing d with
  | nil => simp [setAll]
  | cons e xs ih =>
      have hTail := ih (d.set e.1 e.2)
      have hHead := length_set_le d e.1 e.2
      simp only [setAll, List.foldl_cons, List.length_cons] at hTail ⊢
      omega

theorem length_filter_le (d : Dict α) (p : String → Bool) :
    (d.filter p).entries.length ≤ d.entries.length := List.length_filter_le _ _

/-- `d.pop(k)` of a key that is there takes one entry. -/
theorem length_pop {d : Dict α} {k : String} (h : k ∈ d.keys) :
    (d.filter (· != k)).entries.length + 1 = d.entries.length := by
  obtain ⟨v, hv⟩ := Option.ne_none_iff_exists'.mp (fun hNone => get_eq_none_iff.mp hNone h)
  have hOne : (d.entries.filter (fun e => e.1 = k)).length = 1 := by rw [filter_key hv]; rfl
  have hSplit := List.length_eq_length_filter_add (l := d.entries) (fun e => decide (e.1 = k))
  have hRest : d.entries.filter (fun e => !decide (e.1 = k)) = (d.filter (· != k)).entries := by
    simp [filter, bne, beq_eq_decide]
  rw [hRest] at hSplit
  omega

end Dict

/-- A value of a result dictionary. -/
inductive PyVal where
  | none
  | bool (b : Bool)
  | num (q : ℚ)
  | text (s : String)
  | list (items : List String)
deriving DecidableEq

namespace PyVal

/-- `bool(v)`; a missing entry counts as `None`. -/
def truthy : Option PyVal → Bool
  | Option.none => false
  | some none => false
  | some (bool b) => b
  | some (num q) => q ≠ 0
  | some (text s) => s ≠ ""
  | some (list items) => !items.isEmpty

/-- `v is not None`. -/
def isSome : Option PyVal → Bool
  | Option.none => false
  | some none => false
  | _ => true

/-- `isinstance(v, (int, float))`, and then the value: a bool is an int. -/
def number : Option PyVal → Option ℚ
  | some (num q) => some q
  | some (bool b) => some (if b then 1 else 0)
  | _ => Option.none

/-- `float(v)`; `none` when it raises. -/
def float : Option PyVal → Option ℚ
  | some (text s) => PyText.toFloat s
  | v => number v

/-- `int(v)`; `none` when it raises. -/
def int : Option PyVal → Option Int
  | some (text s) => PyText.toInt s
  | v => (number v).map fun q => q.num.tdiv q.den

/-- `float(v or default)`, where the default is only computed when it is needed. -/
def floatOr (v : Option PyVal) (default : Option ℚ) : Option ℚ :=
  if truthy v then float v else default

/-- A number, or nothing at all. -/
def Numeric (v : Option PyVal) : Prop := v = Option.none ∨ ∃ q, v = some (num q)

/-- A number, a bool, `None`, or nothing at all: what `float` takes after a default. -/
def Readable (v : Option PyVal) : Prop :=
  v = Option.none ∨ v = some none ∨ ∃ q, number v = some q

theorem numeric_map_num (q : Option ℚ) : Numeric (q.map num) := by
  cases q with
  | none => exact Or.inl rfl
  | some q => exact Or.inr ⟨q, rfl⟩

theorem Numeric.or {a b : Option PyVal} (ha : Numeric a) (hb : Numeric b) : Numeric (a.or b) := by
  rcases ha with rfl | ⟨q, rfl⟩
  · exact hb
  · exact Or.inr ⟨q, rfl⟩

theorem floatOr_num (q : ℚ) (default : Option ℚ) :
    floatOr (some (num q)) default = if q = 0 then default else some q := by
  by_cases h : q = 0 <;> simp [floatOr, truthy, float, number, h]

@[simp] theorem floatOr_none (default : Option ℚ) : floatOr Option.none default = default := rfl

/-- `float(v or 0)` of a number is the number, also when it is zero. -/
@[simp] theorem floatOr_num_zero (q : ℚ) : floatOr (some (num q)) (some 0) = some q := by
  rw [floatOr_num]
  split
  case isTrue h => rw [h]
  case isFalse => rfl

theorem float_of_number {v : Option PyVal} {q : ℚ} (h : number v = some q) : float v = some q := by
  unfold number at h
  split at h
  · exact h
  · exact h
  · cases h

/-- `float(v or default)` of a readable value does not raise. -/
theorem Readable.floatOr {v : Option PyVal} (h : Readable v) (default : ℚ) :
    ∃ q, PyVal.floatOr v (some default) = some q := by
  unfold PyVal.floatOr
  split
  case isFalse => exact ⟨default, rfl⟩
  case isTrue hTrue =>
    rcases h with rfl | rfl | ⟨q, hq⟩
    · cases hTrue
    · cases hTrue
    · exact ⟨q, float_of_number hq⟩

end PyVal

/-- Round to an integer, a half to the even one. -/
def roundHalfEven (q : ℚ) : Int :=
  let n := ⌊q⌋
  if q - n < 1 / 2 then n
  else if 1 / 2 < q - n then n + 1
  else if n % 2 = 0 then n
  else n + 1

/-- `round(q, digits)`. -/
def round (q : ℚ) (digits : Nat) : ℚ := roundHalfEven (q * 10 ^ digits) / 10 ^ digits

theorem roundHalfEven_intCast (n : Int) : roundHalfEven n = n := by
  simp [roundHalfEven]

/-- A number with no more digits than asked for stays as it is. -/
theorem round_eq_self {q : ℚ} {digits : Nat} {n : Int} (h : q * 10 ^ digits = n) :
    round q digits = q := by
  have hPow : (10 : ℚ) ^ digits ≠ 0 := by positivity
  rw [round, h, roundHalfEven_intCast, ← h, mul_div_assoc, div_self hPow, mul_one]

end PyDict
