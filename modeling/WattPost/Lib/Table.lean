import Mathlib.Algebra.BigOperators.Group.List.Basic
import Mathlib.Algebra.GroupWithZero.Nat
import Mathlib.Data.List.Sort
import Mathlib.Order.Basic

/-! Keyed tables. A table holds at most one row for each key and lists its
rows in key order, as a table stored by its primary key does. Everything a
table says is in `lookup`: two tables with the same lookups are equal. -/
namespace Keyed

section Rows

variable {K R : Type} [LinearOrder K]

/-- The key order of rows. It is strict, so a sorted list repeats no key. -/
abbrev KeyLt (a b : K × R) : Prop := a.1 < b.1

/-- Rows in strictly increasing key order. -/
structure Table (K R : Type) [LinearOrder K] where
  rows : List (K × R)
  sorted : rows.Pairwise KeyLt

/-- Sorted row lists are determined by their members. -/
theorem eq_of_mem_iff {xs ys : List (K × R)} (hx : xs.Pairwise KeyLt) (hy : ys.Pairwise KeyLt)
    (h : ∀ a, a ∈ xs ↔ a ∈ ys) : xs = ys := by
  have nodup : ∀ {zs : List (K × R)}, zs.Pairwise KeyLt → zs.Nodup := fun hz =>
    hz.imp fun hab he => by
      subst he
      exact lt_irrefl _ hab
  have hPerm : xs.Perm ys := (List.perm_ext_iff_of_nodup (nodup hx) (nodup hy)).mpr h
  exact hPerm.eq_of_pairwise (fun a b _ _ hab hba => absurd hab (lt_asymm hba)) hx hy

/-- In a sorted list a key has one row. -/
theorem unique_of_sorted {xs : List (K × R)} (hx : xs.Pairwise KeyLt) {k : K} {r r' : R}
    (h : (k, r) ∈ xs) (h' : (k, r') ∈ xs) : r = r' := by
  induction xs with
  | nil => cases h
  | cons x xs ih =>
      obtain ⟨hHead, hTail⟩ := List.pairwise_cons.mp hx
      rcases List.mem_cons.mp h with hr | hm
      · rcases List.mem_cons.mp h' with hr' | hm'
        · exact congrArg Prod.snd (hr.trans hr'.symm)
        · subst hr
          exact absurd (hHead _ hm') (lt_irrefl _)
      · rcases List.mem_cons.mp h' with hr' | hm'
        · subst hr'
          exact absurd (hHead _ hm) (lt_irrefl _)
        · exact ih hTail hm hm'

namespace Table

def empty : Table K R := ⟨[], List.Pairwise.nil⟩

/-- The row stored under a key. -/
def lookup (t : Table K R) (k : K) : Option R :=
  (t.rows.find? (fun x => x.1 = k)).map Prod.snd

/-- Whether the key has a row. -/
def Has (t : Table K R) (k : K) : Prop := ∃ r, (k, r) ∈ t.rows

@[simp] theorem lookup_empty (k : K) : (empty : Table K R).lookup k = none := rfl

theorem lookup_eq_some_iff {t : Table K R} {k : K} {r : R} :
    t.lookup k = some r ↔ (k, r) ∈ t.rows := by
  constructor
  · intro h
    obtain ⟨x, hx, rfl⟩ := Option.map_eq_some_iff.mp h
    have hk : x.1 = k := by simpa using List.find?_some hx
    subst hk
    exact List.mem_of_find?_eq_some hx
  · intro h
    cases hf : t.rows.find? (fun x => x.1 = k) with
    | none => exact absurd (List.find?_eq_none.mp hf _ h) (by simp)
    | some x =>
        have hk : x.1 = k := by simpa using List.find?_some hf
        subst hk
        have hr := unique_of_sorted t.sorted (List.mem_of_find?_eq_some hf) h
        simp [lookup, hf, hr]

theorem lookup_eq_none_iff {t : Table K R} {k : K} : t.lookup k = none ↔ ¬ t.Has k := by
  constructor
  · rintro h ⟨r, hr⟩
    rw [lookup_eq_some_iff.mpr hr] at h
    cases h
  · intro h
    cases hl : t.lookup k with
    | none => rfl
    | some r => exact absurd ⟨r, lookup_eq_some_iff.mp hl⟩ h

theorem has_iff_lookup {t : Table K R} {k : K} : t.Has k ↔ ∃ r, t.lookup k = some r := by
  simp only [lookup_eq_some_iff, Has]

instance [DecidableEq R] : DecidableEq (Table K R) := fun t u =>
  decidable_of_iff (t.rows = u.rows) ⟨fun h => by cases t; cases u; simp_all, fun h => by rw [h]⟩

/-- Tables are equal when they answer every lookup alike. -/
theorem ext_lookup {t u : Table K R} (h : ∀ k, t.lookup k = u.lookup k) : t = u := by
  have hRows : t.rows = u.rows := by
    apply eq_of_mem_iff t.sorted u.sorted
    rintro ⟨k, r⟩
    rw [← lookup_eq_some_iff, ← lookup_eq_some_iff, h k]
  cases t
  cases u
  simp_all

/-! ### Insertion -/

/-- Insert a row, replacing the row that has its key. -/
def insertRow (k : K) (r : R) : List (K × R) → List (K × R)
  | [] => [(k, r)]
  | x :: xs =>
      if k < x.1 then (k, r) :: x :: xs
      else if k = x.1 then (k, r) :: xs
      else x :: insertRow k r xs

theorem mem_insertRow {k : K} {r : R} {xs : List (K × R)} (hx : xs.Pairwise KeyLt) {a : K × R} :
    a ∈ insertRow k r xs ↔ a = (k, r) ∨ (a ∈ xs ∧ a.1 ≠ k) := by
  induction xs with
  | nil => simp [insertRow]
  | cons x xs ih =>
      obtain ⟨hHead, hTail⟩ := List.pairwise_cons.mp hx
      simp only [insertRow]
      split_ifs with hlt heq
      · have hne : ∀ b ∈ x :: xs, b.1 ≠ k := by
          intro b hb
          rcases List.mem_cons.mp hb with rfl | hb
          · exact ne_of_gt hlt
          · exact ne_of_gt (lt_trans hlt (hHead b hb))
        simp only [List.mem_cons] at hne ⊢
        grind
      · have hne : ∀ b ∈ xs, b.1 ≠ k := fun b hb => heq ▸ ne_of_gt (hHead b hb)
        simp only [List.mem_cons]
        grind
      · simp only [List.mem_cons, ih hTail]
        grind

theorem insertRow_sorted (k : K) (r : R) {xs : List (K × R)} (hx : xs.Pairwise KeyLt) :
    (insertRow k r xs).Pairwise KeyLt := by
  induction xs with
  | nil => simp [insertRow]
  | cons x xs ih =>
      obtain ⟨hHead, hTail⟩ := List.pairwise_cons.mp hx
      simp only [insertRow]
      split_ifs with hlt heq
      · refine List.pairwise_cons.mpr ⟨?_, hx⟩
        intro b hb
        rcases List.mem_cons.mp hb with rfl | hb
        · exact hlt
        · exact lt_trans hlt (hHead b hb)
      · exact List.pairwise_cons.mpr ⟨fun b hb => heq ▸ hHead b hb, hTail⟩
      · refine List.pairwise_cons.mpr ⟨?_, ih hTail⟩
        intro b hb
        rcases (mem_insertRow hTail).mp hb with rfl | ⟨hb, _⟩
        · exact lt_of_le_of_ne (not_lt.mp hlt) (Ne.symm heq)
        · exact hHead b hb

theorem length_insertRow (k : K) (r : R) {xs : List (K × R)} (hNew : ∀ x ∈ xs, x.1 ≠ k) :
    (insertRow k r xs).length = xs.length + 1 := by
  induction xs with
  | nil => rfl
  | cons x xs ih =>
      obtain ⟨hHead, hTail⟩ := List.forall_mem_cons.mp hNew
      simp only [insertRow]
      split_ifs with _ heq
      · rfl
      · exact absurd heq.symm hHead
      · rw [List.length_cons, List.length_cons, ih hTail]

/-- `INSERT OR REPLACE` of one row. -/
def insert (t : Table K R) (k : K) (r : R) : Table K R :=
  ⟨insertRow k r t.rows, insertRow_sorted k r t.sorted⟩

theorem lookup_insert (t : Table K R) (k k' : K) (r : R) :
    (t.insert k r).lookup k' = if k' = k then some r else t.lookup k' := by
  apply Option.ext
  intro r'
  rw [lookup_eq_some_iff]
  change (k', r') ∈ insertRow k r t.rows ↔ _
  rw [mem_insertRow t.sorted]
  by_cases hk : k' = k
  · subst hk
    simp [eq_comm]
  · simp [hk, lookup_eq_some_iff]

theorem length_insert {t : Table K R} {k : K} (hNew : t.lookup k = none) (r : R) :
    (t.insert k r).rows.length = t.rows.length + 1 := by
  apply length_insertRow
  rintro ⟨k', r'⟩ hMem rfl
  exact lookup_eq_none_iff.mp hNew ⟨r', hMem⟩

/-- `INSERT OR REPLACE` of several rows, in order. -/
def insertAll (t : Table K R) (xs : List (K × R)) : Table K R :=
  xs.foldl (fun u x => u.insert x.1 x.2) t

@[simp] theorem insertAll_nil (t : Table K R) : t.insertAll [] = t := rfl

@[simp] theorem insertAll_cons (t : Table K R) (x : K × R) (xs : List (K × R)) :
    t.insertAll (x :: xs) = (t.insert x.1 x.2).insertAll xs := rfl

/-- Inserting leaves the rows of other keys alone. -/
theorem lookup_insertAll_of_forall_ne {t : Table K R} {xs : List (K × R)} {k : K}
    (h : ∀ x ∈ xs, x.1 ≠ k) : (t.insertAll xs).lookup k = t.lookup k := by
  induction xs generalizing t with
  | nil => rfl
  | cons x xs ih =>
      have hne : k ≠ x.1 := (h x List.mem_cons_self).symm
      rw [insertAll_cons, ih (fun y hy => h y (List.mem_cons_of_mem _ hy)), lookup_insert,
        if_neg hne]

/-- An inserted key is stored with one of the values inserted for it. -/
theorem lookup_insertAll_of_mem {t : Table K R} {xs : List (K × R)} {k : K} {r : R}
    (h : (k, r) ∈ xs) : ∃ r', (t.insertAll xs).lookup k = some r' ∧ (k, r') ∈ xs := by
  induction xs generalizing t r with
  | nil => cases h
  | cons x xs ih =>
      by_cases hTail : ∃ r', (k, r') ∈ xs
      · obtain ⟨r', hr'⟩ := hTail
        obtain ⟨v, hv, hm⟩ := ih (t := t.insert x.1 x.2) hr'
        exact ⟨v, hv, List.mem_cons_of_mem _ hm⟩
      · have hne : ∀ y ∈ xs, y.1 ≠ k := by
          rintro y hy rfl
          exact hTail ⟨y.2, hy⟩
        rcases List.mem_cons.mp h with rfl | h
        · refine ⟨r, ?_, List.mem_cons_self⟩
          rw [insertAll_cons, lookup_insertAll_of_forall_ne hne, lookup_insert, if_pos rfl]
        · exact absurd ⟨r, h⟩ hTail

theorem has_insertAll {t : Table K R} {xs : List (K × R)} {k : K} :
    (t.insertAll xs).Has k ↔ t.Has k ∨ ∃ r, (k, r) ∈ xs := by
  by_cases h : ∃ r, (k, r) ∈ xs
  · obtain ⟨r, hr⟩ := h
    obtain ⟨r', hr', _⟩ := lookup_insertAll_of_mem (t := t) hr
    exact ⟨fun _ => Or.inr ⟨r, hr⟩, fun _ => has_iff_lookup.mpr ⟨r', hr'⟩⟩
  · have hne : ∀ x ∈ xs, x.1 ≠ k := by
      rintro x hx rfl
      exact h ⟨x.2, hx⟩
    rw [has_iff_lookup, has_iff_lookup, lookup_insertAll_of_forall_ne hne]
    exact ⟨Or.inl, fun h' => h'.resolve_right h⟩

/-- The last row of a list for a key. -/
def lastRow (k : K) : List (K × R) → Option R
  | [] => none
  | x :: xs => (lastRow k xs).or (if x.1 = k then some x.2 else none)

theorem lastRow_append (k : K) (xs ys : List (K × R)) :
    lastRow k (xs ++ ys) = (lastRow k ys).or (lastRow k xs) := by
  induction xs with
  | nil => exact (Option.or_none).symm
  | cons x xs ih => rw [List.cons_append, lastRow, ih, Option.or_assoc, lastRow]

theorem lastRow_eq_some {k : K} {r : R} {xs : List (K × R)} (h : lastRow k xs = some r) :
    (k, r) ∈ xs := by
  induction xs with
  | nil => cases h
  | cons x xs ih =>
      rw [lastRow, Option.or_eq_some_iff] at h
      rcases h with h | ⟨_, h⟩
      · exact List.mem_cons_of_mem _ (ih h)
      · split_ifs at h with hKey
        cases h
        exact hKey ▸ List.mem_cons_self

theorem lastRow_eq_none {k : K} {xs : List (K × R)} :
    lastRow k xs = none ↔ ∀ r, (k, r) ∉ xs := by
  constructor
  · intro h r hMem
    induction xs with
    | nil => cases hMem
    | cons x xs ih =>
        rw [lastRow, Option.or_eq_none_iff] at h
        rcases List.mem_cons.mp hMem with rfl | hMem
        · simp at h
        · exact ih h.1 hMem
  · intro h
    cases hLast : lastRow k xs with
    | none => rfl
    | some r => exact absurd (lastRow_eq_some hLast) (h r)

/-- Keys that are renamed one to one keep their last rows. -/
theorem lastRow_map {K' R' : Type} [LinearOrder K'] {f : K → K'} (hf : Function.Injective f)
    (g : R → R') (k : K) (xs : List (K × R)) :
    lastRow (f k) (xs.map fun x => (f x.1, g x.2)) = (lastRow k xs).map g := by
  induction xs with
  | nil => rfl
  | cons x xs ih =>
      rw [List.map_cons, lastRow, ih, lastRow, Option.map_or]
      by_cases hk : x.1 = k
      · simp [hk]
      · simp [hk, hf.ne hk]

/-- What was inserted last for a key answers first. -/
theorem lookup_insertAll (t : Table K R) (xs : List (K × R)) (k : K) :
    (t.insertAll xs).lookup k = (lastRow k xs).or (t.lookup k) := by
  induction xs generalizing t with
  | nil => rfl
  | cons x xs ih =>
      rw [insertAll_cons, ih, lookup_insert, lastRow, Option.or_assoc]
      by_cases hk : x.1 = k
      · rw [if_pos hk.symm, if_pos hk, Option.some_or]
      · rw [if_neg (Ne.symm hk), if_neg hk, Option.none_or]

/-- A table holds one row for a key, which is the last one. -/
theorem lastRow_rows (t : Table K R) (k : K) : lastRow k t.rows = t.lookup k := by
  cases hLast : lastRow k t.rows with
  | some r => exact (lookup_eq_some_iff.mpr (lastRow_eq_some hLast)).symm
  | none =>
      refine (lookup_eq_none_iff.mpr ?_).symm
      rintro ⟨r, hMem⟩
      exact lastRow_eq_none.mp hLast r hMem

/-- A sorted list of rows, inserted into an empty table, is the whole table. -/
theorem lookup_insertAll_sorted {xs : List (K × R)} (hx : xs.Pairwise KeyLt) {k : K} {r : R} :
    ((empty : Table K R).insertAll xs).lookup k = some r ↔ (k, r) ∈ xs := by
  constructor
  · intro h
    obtain ⟨r', hMem⟩ := (has_insertAll.mp (has_iff_lookup.mpr ⟨r, h⟩)).resolve_left
      (lookup_eq_none_iff.mp (lookup_empty k))
    obtain ⟨v, hv, hMem⟩ := lookup_insertAll_of_mem (t := empty) hMem
    rw [hv] at h
    cases h
    exact hMem
  · intro h
    obtain ⟨r', hr', hMem⟩ := lookup_insertAll_of_mem (t := empty) h
    rw [hr', unique_of_sorted hx hMem h]

/-- Rows of distinct keys, inserted in any order, are the rows of the table. -/
theorem mem_rows_insertAll {xs : List (K × R)} (hKeys : (xs.map Prod.fst).Nodup) {x : K × R} :
    x ∈ ((empty : Table K R).insertAll xs).rows ↔ x ∈ xs := by
  rw [← Prod.mk.eta (p := x), ← lookup_eq_some_iff]
  constructor
  · intro h
    obtain ⟨r, hMem⟩ := (has_insertAll.mp (has_iff_lookup.mpr ⟨x.2, h⟩)).resolve_left
      (lookup_eq_none_iff.mp (lookup_empty x.1))
    obtain ⟨v, hv, hMem⟩ := lookup_insertAll_of_mem (t := empty) hMem
    rw [hv] at h
    cases h
    exact hMem
  · intro h
    obtain ⟨r, hr, hMem⟩ := lookup_insertAll_of_mem (t := empty) h
    have hSame : (x.1, r) = (x.1, x.2) := List.inj_on_of_nodup_map hKeys hMem h rfl
    rw [hr, (Prod.mk.inj hSame).2]

/-- `INSERT OR REPLACE INTO t SELECT * FROM u`. -/
def replaceWith (t u : Table K R) : Table K R := t.insertAll u.rows

/-- The inserted table answers first. -/
theorem lookup_replaceWith (t u : Table K R) (k : K) :
    (t.replaceWith u).lookup k = (u.lookup k).or (t.lookup k) := by
  cases hu : u.lookup k with
  | some r =>
      obtain ⟨r', hr', hm⟩ := lookup_insertAll_of_mem (t := t) (lookup_eq_some_iff.mp hu)
      rw [lookup_eq_some_iff.mpr hm] at hu
      exact hr'.trans hu
  | none =>
      apply lookup_insertAll_of_forall_ne
      rintro x hx rfl
      exact lookup_eq_none_iff.mp hu ⟨x.2, hx⟩

theorem has_replaceWith {t u : Table K R} {k : K} :
    (t.replaceWith u).Has k ↔ t.Has k ∨ u.Has k := has_insertAll

/-! ### Restriction to a range of keys -/

/-- The rows whose key satisfies a condition. `DELETE ... WHERE` keeps the
rows of the negated condition. -/
def filterKeys (t : Table K R) (p : K → Bool) : Table K R :=
  ⟨t.rows.filter (fun x => p x.1), t.sorted.filter _⟩

@[simp] theorem mem_filterKeys {t : Table K R} {p : K → Bool} {x : K × R} :
    x ∈ (t.filterKeys p).rows ↔ x ∈ t.rows ∧ p x.1 = true := by
  simp [filterKeys]

@[simp] theorem lookup_filterKeys (t : Table K R) (p : K → Bool) (k : K) :
    (t.filterKeys p).lookup k = if p k then t.lookup k else none := by
  apply Option.ext
  intro r
  by_cases hp : p k = true <;> simp [lookup_eq_some_iff, hp]

theorem has_filterKeys {t : Table K R} {p : K → Bool} {k : K} :
    (t.filterKeys p).Has k ↔ t.Has k ∧ p k = true := by
  simp [Has]

/-- Two tables look alike under a reading of their rows when their lookups do. -/
theorem map_rows_eq_iff {R' : Type} (φ : R → R') {t u : Table K R} :
    (t.rows.map fun x => (x.1, φ x.2)) = (u.rows.map fun x => (x.1, φ x.2)) ↔
      ∀ k, (t.lookup k).map φ = (u.lookup k).map φ := by
  have hMem : ∀ (v : Table K R) (k : K) (q : R'),
      (k, q) ∈ v.rows.map (fun x => (x.1, φ x.2)) ↔ (v.lookup k).map φ = some q := by
    intro v k q
    rw [List.mem_map, Option.map_eq_some_iff]
    constructor
    · rintro ⟨⟨k', r⟩, hr, he⟩
      obtain ⟨rfl, rfl⟩ := Prod.mk.inj he
      exact ⟨r, lookup_eq_some_iff.mpr hr, rfl⟩
    · rintro ⟨r, hr, rfl⟩
      exact ⟨(k, r), lookup_eq_some_iff.mp hr, rfl⟩
  constructor
  · intro h k
    apply Option.ext
    intro q
    rw [← hMem, ← hMem, h]
  · intro h
    have hSorted : ∀ v : Table K R, (v.rows.map fun x => (x.1, φ x.2)).Pairwise KeyLt :=
      fun v => List.pairwise_map.mpr v.sorted
    apply eq_of_mem_iff (hSorted t) (hSorted u)
    rintro ⟨k, q⟩
    rw [hMem, hMem, h]

/-- A condition that holds below another one cuts the rows at that point. -/
theorem filterKeys_rows_append (t : Table K R) (p q r : K → Bool)
    (hIff : ∀ k, p k = true ↔ q k = true ∨ r k = true)
    (hLt : ∀ k k', q k = true → r k' = true → k < k') :
    (t.filterKeys p).rows = (t.filterKeys q).rows ++ (t.filterKeys r).rows := by
  apply eq_of_mem_iff (t.filterKeys p).sorted
  · refine List.pairwise_append.mpr ⟨(t.filterKeys q).sorted, (t.filterKeys r).sorted, ?_⟩
    intro a ha b hb
    exact hLt _ _ (mem_filterKeys.mp ha).2 (mem_filterKeys.mp hb).2
  · intro a
    simp only [List.mem_append, mem_filterKeys, hIff]
    tauto

end Table

end Rows

/-! ### Grouping -/

section Grouping

variable {K R K' R' : Type} [LinearOrder K']

/-- The rows of one group, in key order. -/
def group (f : K → K') (k' : K') (xs : List (K × R)) : List (K × R) :=
  xs.filter (fun x => f x.1 = k')

theorem mem_group {f : K → K'} {k' : K'} {xs : List (K × R)} {x : K × R} :
    x ∈ group f k' xs ↔ x ∈ xs ∧ f x.1 = k' := by
  simp [group]

/-- Aggregate a group. An empty group has no row. -/
def foldGroup (agg : R → List R → R') : List (K × R) → Option R'
  | [] => none
  | x :: xs => some (agg x.2 (xs.map Prod.snd))

theorem foldGroup_eq_none {agg : R → List R → R'} {xs : List (K × R)} :
    foldGroup agg xs = none ↔ xs = [] := by
  cases xs <;> simp [foldGroup]

/-- `SELECT f(key), agg(...) GROUP BY f(key)`, listed by the group key. -/
def groupBy (f : K → K') (agg : R → List R → R') (xs : List (K × R)) : Table K' R' :=
  xs.foldl (fun t x =>
    match foldGroup agg (group f (f x.1) xs) with
    | none => t
    | some r => t.insert (f x.1) r) Table.empty

private theorem lookup_foldl_insert (g : K' → Option R') (f : K → K') (xs : List (K × R))
    (hg : ∀ x ∈ xs, g (f x.1) ≠ none) (t : Table K' R') (k' : K') :
    (xs.foldl (fun t x =>
      match g (f x.1) with
      | none => t
      | some r => t.insert (f x.1) r) t).lookup k' =
        if ∃ x ∈ xs, f x.1 = k' then g k' else t.lookup k' := by
  induction xs generalizing t with
  | nil => simp
  | cons x xs ih =>
      rw [List.foldl_cons, ih (fun y hy => hg y (List.mem_cons_of_mem _ hy))]
      obtain ⟨r, hr⟩ := Option.ne_none_iff_exists'.mp (hg x List.mem_cons_self)
      by_cases hTail : ∃ y ∈ xs, f y.1 = k'
      · rw [if_pos hTail, if_pos]
        obtain ⟨y, hy, he⟩ := hTail
        exact ⟨y, List.mem_cons_of_mem _ hy, he⟩
      · rw [if_neg hTail]
        simp only [hr, Table.lookup_insert]
        by_cases hk : f x.1 = k'
        · rw [if_pos hk.symm, if_pos ⟨x, List.mem_cons_self, hk⟩, ← hk, hr]
        · rw [if_neg (Ne.symm hk), if_neg]
          rintro ⟨y, hy, he⟩
          rcases List.mem_cons.mp hy with rfl | hy
          · exact hk he
          · exact hTail ⟨y, hy, he⟩

/-- Each group key has exactly the aggregate of its group. -/
theorem lookup_groupBy (f : K → K') (agg : R → List R → R') (xs : List (K × R)) (k' : K') :
    (groupBy f agg xs).lookup k' = foldGroup agg (group f k' xs) := by
  have hg : ∀ x ∈ xs, foldGroup agg (group f (f x.1) xs) ≠ none := by
    intro x hx he
    have hMem : x ∈ group f (f x.1) xs := mem_group.mpr ⟨hx, rfl⟩
    rw [foldGroup_eq_none.mp he] at hMem
    cases hMem
  rw [groupBy, lookup_foldl_insert (fun k => foldGroup agg (group f k xs)) f xs hg]
  split_ifs with h
  · rfl
  · rw [Table.lookup_empty, eq_comm, foldGroup_eq_none, List.eq_nil_iff_forall_not_mem]
    intro x hx
    exact h ⟨x, (mem_group.mp hx).1, (mem_group.mp hx).2⟩

theorem has_groupBy {f : K → K'} {agg : R → List R → R'} {xs : List (K × R)} {k' : K'} :
    (groupBy f agg xs).Has k' ↔ ∃ x ∈ xs, f x.1 = k' := by
  rw [← not_iff_not, ← Table.lookup_eq_none_iff, lookup_groupBy, foldGroup_eq_none,
    List.eq_nil_iff_forall_not_mem]
  simp [mem_group]

/-- Sum a value over rows with distinct keys, each matched under its key by a
row that counts at least as much. -/
theorem sum_map_le_of_match (f g : R → Nat) {xs ys : List (K × R)}
    (hx : xs.Pairwise (fun a b => a.1 ≠ b.1))
    (h : ∀ x ∈ xs, ∃ r, (x.1, r) ∈ ys ∧ f x.2 ≤ g r) :
    (xs.map (fun x => f x.2)).sum ≤ (ys.map (fun y => g y.2)).sum := by
  induction xs generalizing ys with
  | nil => simp
  | cons x xs ih =>
      obtain ⟨hHead, hTail⟩ := List.pairwise_cons.mp hx
      obtain ⟨r, hr, hle⟩ := h x List.mem_cons_self
      obtain ⟨before, after, rfl⟩ := List.append_of_mem hr
      -- the row matched with `x` is used up; the others still have theirs
      have hRest : ∀ y ∈ xs, ∃ r', (y.1, r') ∈ before ++ after ∧ f y.2 ≤ g r' := by
        intro y hy
        obtain ⟨r', hr', hle'⟩ := h y (List.mem_cons_of_mem _ hy)
        refine ⟨r', ?_, hle'⟩
        rcases List.mem_append.mp hr' with hm | hm
        · exact List.mem_append_left _ hm
        · rcases List.mem_cons.mp hm with he | hm
          · exact absurd (congrArg Prod.fst he).symm (hHead y hy)
          · exact List.mem_append_right _ hm
      have hSum := ih hTail hRest
      simp only [List.map_append, List.sum_append, List.map_cons, List.sum_cons] at hSum ⊢
      omega

/-- To choose groups by their key is to choose the rows of the groups. -/
theorem filter_groupBy (f : K → K') (p : K' → Bool) (agg : R → List R → R') (xs : List (K × R)) :
    (groupBy f agg xs).rows.filter (fun x => p x.1) =
      (groupBy f agg (xs.filter fun x => p (f x.1))).rows := by
  apply eq_of_mem_iff ((groupBy f agg xs).sorted.filter _) (Table.sorted _)
  rintro ⟨a, r⟩
  rw [List.mem_filter, ← Table.lookup_eq_some_iff, ← Table.lookup_eq_some_iff, lookup_groupBy,
    lookup_groupBy]
  by_cases ha : p a = true
  · have hSame : group f a (xs.filter fun x => p (f x.1)) = group f a xs := by
      rw [group, group, List.filter_filter]
      apply List.filter_congr
      intro x _
      by_cases hx : f x.1 = a
      · simp [hx, ha]
      · simp [hx]
    simp [hSame, ha]
  · have hNone : group f a (xs.filter fun x => p (f x.1)) = [] := by
      rw [List.eq_nil_iff_forall_not_mem]
      intro x hx
      obtain ⟨hx, hxa⟩ := mem_group.mp hx
      exact ha (hxa ▸ (List.mem_filter.mp hx).2)
    simp [hNone, ha, foldGroup]

/-- The groups of one coarser group are the groups of its rows. -/
theorem group_groupBy {K'' : Type} [LinearOrder K''] (f : K → K') (h : K' → K'')
    (agg : R → List R → R') (xs : List (K × R)) (k : K'') :
    group h k (groupBy f agg xs).rows = (groupBy f agg (group (fun x => h (f x)) k xs)).rows :=
  filter_groupBy f (fun a => h a = k) agg xs

/-- A function of the aggregate is an aggregate of its own. -/
theorem groupBy_rows_map {R₂ : Type} (f : K → K') (agg : R → List R → R') (φ : R' → R₂)
    (xs : List (K × R)) :
    (groupBy f (fun r rs => φ (agg r rs)) xs).rows =
      (groupBy f agg xs).rows.map (fun p => (p.1, φ p.2)) := by
  have hSorted : ((groupBy f agg xs).rows.map (fun p => (p.1, φ p.2))).Pairwise KeyLt :=
    List.pairwise_map.mpr (groupBy f agg xs).sorted
  apply eq_of_mem_iff (Table.sorted _) hSorted
  rintro ⟨k, s⟩
  rw [← Table.lookup_eq_some_iff, lookup_groupBy, List.mem_map]
  have hFold : foldGroup (fun r rs => φ (agg r rs)) (group f k xs) =
      (foldGroup agg (group f k xs)).map φ := by
    cases group f k xs <;> rfl
  rw [hFold, Option.map_eq_some_iff]
  constructor
  · rintro ⟨r, hr, rfl⟩
    exact ⟨(k, r), Table.lookup_eq_some_iff.mp (by rw [lookup_groupBy, hr]), rfl⟩
  · rintro ⟨⟨k', r⟩, hr, he⟩
    obtain ⟨rfl, rfl⟩ := Prod.mk.inj he
    refine ⟨r, ?_, rfl⟩
    rw [← lookup_groupBy]
    exact Table.lookup_eq_some_iff.mpr hr

/-- To aggregate rows that are read off others is to aggregate the others. -/
theorem groupBy_map {R₀ : Type} (f : K → K') (agg : R → List R → R') (φ : R₀ → R)
    (xs : List (K × R₀)) :
    groupBy f agg (xs.map fun x => (x.1, φ x.2)) =
      groupBy f (fun r rs => agg (φ r) (rs.map φ)) xs := by
  apply Table.ext_lookup
  intro k
  have hGroup : group f k (xs.map fun x => (x.1, φ x.2)) =
      (group f k xs).map fun x => (x.1, φ x.2) := by
    rw [group, group, List.filter_map]
    rfl
  rw [lookup_groupBy, lookup_groupBy, hGroup]
  cases group f k xs with
  | nil => rfl
  | cons x rest => simp [foldGroup, Function.comp_def]

private theorem sum_group_of_nodup {M : Type} [AddCommMonoid M] (f : K → K') (g : K × R → M)
    {ms : List K'} (hNodup : ms.Nodup) {ys : List (K × R)} (hMem : ∀ y ∈ ys, f y.1 ∈ ms) :
    (ms.map (fun m => ((group f m ys).map g).sum)).sum = (ys.map g).sum := by
  induction ys with
  | nil => simp [group]
  | cons y ys ih =>
      have hCons : ∀ m, ((group f m (y :: ys)).map g).sum =
          (if m = f y.1 then g y else 0) + ((group f m ys).map g).sum := by
        intro m
        by_cases hm : m = f y.1
        · subst hm
          simp [group]
        · simp [group, hm, Ne.symm hm]
      have hOne : (ms.map (fun m => if m = f y.1 then g y else 0)).sum = g y := by
        rw [List.sum_map_eq_nsmul_single (f y.1) _ (fun m hm _ => if_neg hm),
          List.count_eq_one_of_mem hNodup (hMem y List.mem_cons_self), one_nsmul, if_pos rfl]
      simp only [hCons, List.sum_map_add, hOne, List.map_cons, List.sum_cons]
      rw [ih (fun z hz => hMem z (List.mem_cons_of_mem _ hz))]

/-- A total over groups of totals over their rows is the total over the rows. -/
theorem sum_groupBy {M : Type} [AddCommMonoid M] (f : K → K') (agg : R → List R → R')
    (g : R → M) (φ : R' → M) (hφ : ∀ r rs, φ (agg r rs) = ((r :: rs).map g).sum)
    (xs : List (K × R)) :
    ((groupBy f agg xs).rows.map (fun p => φ p.2)).sum = (xs.map (fun x => g x.2)).sum := by
  have hRow : ∀ p ∈ (groupBy f agg xs).rows,
      φ p.2 = ((group f p.1 xs).map (fun x => g x.2)).sum := by
    rintro ⟨k, r⟩ hp
    rw [← Table.lookup_eq_some_iff, lookup_groupBy] at hp
    cases hGroup : group f k xs with
    | nil => rw [hGroup] at hp; cases hp
    | cons x rest =>
        rw [hGroup, foldGroup, Option.some.injEq] at hp
        subst hp
        simp [hφ, Function.comp_def]
  have hNodup : ((groupBy f agg xs).rows.map Prod.fst).Nodup :=
    List.pairwise_map.mpr ((groupBy f agg xs).sorted.imp fun hab => ne_of_lt hab)
  have hMem : ∀ x ∈ xs, f x.1 ∈ (groupBy f agg xs).rows.map Prod.fst := by
    intro x hx
    have hHas : (groupBy f agg xs).Has (f x.1) := has_groupBy.mpr ⟨x, hx, rfl⟩
    obtain ⟨r, hr⟩ := hHas
    exact List.mem_map_of_mem (f := Prod.fst) hr
  rw [List.map_congr_left hRow, ← sum_group_of_nodup f (fun x => g x.2) hNodup hMem, List.map_map]
  rfl

end Grouping

end Keyed
