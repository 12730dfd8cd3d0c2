import Mathlib.Data.List.Dedup
import Mathlib.Data.List.Perm.Subperm
import Mathlib.Data.List.Sort

/-! Bounded sets of the newest keys. A set keeps its largest keys in increasing
order; once it is full, whatever lies below its smallest key counts as refused
too, so that a key which falls out is never taken for a new one. -/
namespace Newest

variable {α : Type}

/-- `xs[-n:]`. The slice `xs[-0:]` is all of the list. -/
def lastN (n : Nat) (xs : List α) : List α := if n = 0 then xs else xs.drop (xs.length - n)

variable [LinearOrder α]

/-- `sorted(set(xs))`. -/
def sortedSet (xs : List α) : List α := xs.dedup.insertionSort (· ≤ ·)

/-- The newest `cap` keys after one more. -/
def add (cap : Nat) (xs : List α) (x : α) : List α := lastN cap (sortedSet (x :: xs))

/-- Whether a key is in the set, or the set is full and the key is older than
its oldest. -/
def refuses (cap : Nat) (xs : List α) (x : α) : Bool :=
  xs.contains x || (decide (cap ≤ xs.length) && xs.head?.any (fun y => decide (x < y)))

section SortedSet

@[simp] theorem mem_sortedSet {xs : List α} {x : α} : x ∈ sortedSet xs ↔ x ∈ xs := by
  simp [sortedSet]

theorem sortedSet_sorted (xs : List α) : (sortedSet xs).Pairwise (· < ·) := by
  have hLe : (sortedSet xs).Pairwise (· ≤ ·) := List.pairwise_insertionSort _ _
  have hNodup : (sortedSet xs).Nodup :=
    (List.perm_insertionSort _ _).nodup_iff.mpr (List.nodup_dedup xs)
  exact hLe.imp₂ (fun _ _ hab hne => lt_of_le_of_ne hab hne) hNodup

theorem nodup_of_sorted {xs : List α} (h : xs.Pairwise (· < ·)) : xs.Nodup := h.imp ne_of_lt

theorem sortedSet_of_sorted {xs : List α} (h : xs.Pairwise (· < ·)) : sortedSet xs = xs := by
  unfold sortedSet
  rw [(nodup_of_sorted h).dedup]
  exact (h.imp le_of_lt).insertionSort_eq

/-- A set with another key is at least as long. -/
theorem length_le_sortedSet_cons {xs : List α} (h : xs.Pairwise (· < ·)) (x : α) :
    xs.length ≤ (sortedSet (x :: xs)).length := by
  refine (List.subperm_of_subset (nodup_of_sorted h) ?_).length_le
  intro y hy
  exact mem_sortedSet.mpr (List.mem_cons_of_mem x hy)

theorem length_lt_sortedSet_cons {xs : List α} (h : xs.Pairwise (· < ·)) {x : α} (hx : x ∉ xs) :
    xs.length < (sortedSet (x :: xs)).length := by
  have hNodup : (x :: xs).Nodup := List.nodup_cons.mpr ⟨hx, nodup_of_sorted h⟩
  have hLe : (x :: xs).length ≤ (sortedSet (x :: xs)).length := by
    refine (List.subperm_of_subset hNodup ?_).length_le
    intro y hy
    exact mem_sortedSet.mpr hy
  exact hLe

end SortedSet

section LastN

variable {n : Nat} {xs : List α}

omit [LinearOrder α] in
theorem lastN_sublist (n : Nat) (xs : List α) : (lastN n xs).Sublist xs := by
  unfold lastN
  split
  · exact List.Sublist.refl xs
  · exact List.drop_sublist _ xs

theorem lastN_sorted (n : Nat) (h : xs.Pairwise (· < ·)) : (lastN n xs).Pairwise (· < ·) :=
  h.sublist (lastN_sublist n xs)

omit [LinearOrder α] in
theorem length_lastN (hn : 0 < n) (xs : List α) : (lastN n xs).length = min n xs.length := by
  rw [lastN, if_neg hn.ne', List.length_drop]
  omega

omit [LinearOrder α] in
theorem length_lastN_le (hn : 0 < n) (xs : List α) : (lastN n xs).length ≤ n := by
  rw [length_lastN hn]
  exact Nat.min_le_left n _

omit [LinearOrder α] in
theorem lastN_of_length_le (h : xs.length ≤ n) : lastN n xs = xs := by
  unfold lastN
  split
  · rfl
  · rw [Nat.sub_eq_zero_of_le h, List.drop_zero]

/-- What falls out of a sorted list lies below all that stays, and then the
rest is full. -/
theorem mem_lastN_or_lt (h : xs.Pairwise (· < ·)) {x : α} (hx : x ∈ xs) :
    x ∈ lastN n xs ∨ (n < xs.length ∧ ∀ y ∈ lastN n xs, x < y) := by
  unfold lastN
  split
  · exact Or.inl hx
  · rw [← List.take_append_drop (xs.length - n) xs] at h hx
    rcases List.mem_append.mp hx with hTake | hDrop
    · refine Or.inr ⟨?_, fun y hy => (List.pairwise_append.mp h).2.2 x hTake y hy⟩
      have hPos : 0 < (xs.take (xs.length - n)).length := List.length_pos_of_mem hTake
      rw [List.length_take] at hPos
      omega
    · exact Or.inl hDrop

/-- A key with fewer than `n` larger ones is among the last `n`. -/
theorem mem_lastN_of_few_larger (h : xs.Pairwise (· < ·)) {x : α} (hx : x ∈ xs)
    (hFew : (xs.filter (fun y => decide (x < y))).length < n) : x ∈ lastN n xs := by
  rcases mem_lastN_or_lt (n := n) h hx with hKept | ⟨hLength, hBelow⟩
  · exact hKept
  · have hLast : (lastN n xs).length = n := by
      rw [length_lastN (by omega)]
      omega
    have hSub : (lastN n xs).Sublist (xs.filter (fun y => decide (x < y))) := by
      have hFilter := (lastN_sublist n xs).filter (fun y => decide (x < y))
      rwa [List.filter_eq_self.mpr (fun y hy => decide_eq_true (hBelow y hy))] at hFilter
    have hLe := hSub.length_le
    omega

end LastN

section Refuses

variable {cap : Nat} {xs : List α} {x z : α}

theorem refuses_iff (hCap : 0 < cap) (h : xs.Pairwise (· < ·)) :
    refuses cap xs z = true ↔ z ∈ xs ∨ (cap ≤ xs.length ∧ ∀ y ∈ xs, z < y) := by
  cases xs with
  | nil =>
      have : cap ≠ 0 := hCap.ne'
      simp [refuses, this]
  | cons first rest =>
      have hFirst : (∀ y ∈ first :: rest, z < y) ↔ z < first := by
        constructor
        · intro hAll
          exact hAll first List.mem_cons_self
        · intro hLt y hy
          rcases List.mem_cons.mp hy with rfl | hRest
          · exact hLt
          · exact hLt.trans ((List.pairwise_cons.mp h).1 y hRest)
      rw [hFirst]
      simp [refuses]

theorem add_sorted (cap : Nat) (xs : List α) (x : α) : (add cap xs x).Pairwise (· < ·) :=
  lastN_sorted cap (sortedSet_sorted (x :: xs))

theorem length_add_le (hCap : 0 < cap) (xs : List α) (x : α) : (add cap xs x).length ≤ cap :=
  length_lastN_le hCap _

/-- Every key of the list, and the new one, is kept or lies below a full set. -/
theorem refuses_add_of_mem (hCap : 0 < cap) (hz : z ∈ x :: xs) :
    refuses cap (add cap xs x) z = true := by
  rw [refuses_iff hCap (add_sorted cap xs x)]
  rcases mem_lastN_or_lt (n := cap) (sortedSet_sorted (x :: xs)) (mem_sortedSet.mpr hz) with
    hKept | ⟨hLength, hBelow⟩
  · exact Or.inl hKept
  · refine Or.inr ⟨?_, hBelow⟩
    rw [add, length_lastN hCap]
    omega

/-- A new key below every key of a full list falls out at once. -/
theorem not_mem_add (hCap : 0 < cap) (h : xs.Pairwise (· < ·)) (hFull : cap ≤ xs.length)
    (hBelow : ∀ y ∈ xs, x < y) : x ∉ add cap xs x := by
  intro hx
  have hSorted := sortedSet_sorted (x :: xs)
  have hNew : x ∉ xs := fun hm => lt_irrefl x (hBelow x hm)
  have hMore := length_lt_sortedSet_cons h hNew
  -- If it stayed, nothing below it would have fallen out, and all of the keys would be there.
  have hAll : ∀ w ∈ sortedSet (x :: xs), w ∈ add cap xs x := by
    intro w hw
    rcases mem_lastN_or_lt (n := cap) hSorted hw with hKept | ⟨_, hFell⟩
    · exact hKept
    · rcases List.mem_cons.mp (mem_sortedSet.mp hw) with rfl | hOld
      · exact absurd (hFell w hx) (lt_irrefl w)
      · exact absurd (hFell x hx) (lt_asymm (hBelow w hOld))
  have hLength := (List.subperm_of_subset (nodup_of_sorted hSorted) hAll).length_le
  have hCapLe := length_add_le hCap xs x
  omega

/-- Adding a key refuses no fewer. -/
theorem refuses_add_of_refuses (hCap : 0 < cap) (h : xs.Pairwise (· < ·)) (x : α)
    (hz : refuses cap xs z = true) : refuses cap (add cap xs x) z = true := by
  rcases (refuses_iff hCap h).mp hz with hMem | ⟨hFull, hBelow⟩
  · exact refuses_add_of_mem hCap (List.mem_cons_of_mem x hMem)
  · by_cases hEq : z = x
    · subst hEq
      exact refuses_add_of_mem hCap List.mem_cons_self
    · rw [refuses_iff hCap (add_sorted cap xs x)]
      refine Or.inr ⟨?_, ?_⟩
      · have hGrows := length_le_sortedSet_cons h x
        rw [add, length_lastN hCap]
        omega
      · intro y hy
        rcases List.mem_cons.mp (mem_sortedSet.mp ((lastN_sublist cap _).subset hy)) with rfl | hOld
        · by_contra hNot
          have hLt : y < z := lt_of_le_of_ne (not_lt.mp hNot) (Ne.symm hEq)
          exact not_mem_add hCap h hFull (fun w hw => hLt.trans (hBelow w hw)) hy
        · exact hBelow y hOld

end Refuses

end Newest
