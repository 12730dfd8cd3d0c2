import Mathlib.Data.List.Sort

/-! Keeping the last so many of some items. Which are the last is told by the order in which
they came; a program that cannot see this order judges by a key, such as a file time. -/
namespace Retention

variable {α κ : Type}

section Order

variable (order : α → Nat)

/-- How many came after an item. -/
def later (xs : List α) (x : α) : Nat := xs.countP fun y => order x < order y

/-- The item is one of the last `k`. -/
def Recent (k : Nat) (xs : List α) (x : α) : Prop := later order xs x < k

instance (k : Nat) (xs : List α) (x : α) : Decidable (Recent order k xs x) :=
  inferInstanceAs (Decidable (_ < _))

variable {order}

theorem later_perm {xs ys : List α} (h : xs.Perm ys) (x : α) :
    later order xs x = later order ys x := h.countP_eq _

theorem later_mono {xs : List α} {x y : α} (h : order x ≤ order y) :
    later order xs y ≤ later order xs x :=
  List.countP_mono_left fun z _ hz => by
    simp only [decide_eq_true_eq] at hz ⊢
    omega

/-- What is not recent came before all that is. -/
theorem order_lt_of_recent {k : Nat} {xs : List α} {x y : α} (hx : Recent order k xs x)
    (hy : ¬ Recent order k xs y) : order y < order x := by
  by_contra hLe
  exact hy ((later_mono (not_lt.mp hLe)).trans_lt hx)

/-- In a list from the last to the first. -/
theorem countP_recent_of_sorted {xs : List α} (h : xs.Pairwise fun x y => order y < order x)
    (k : Nat) : (xs.countP fun x => Recent order k xs x) = min k xs.length := by
  induction xs generalizing k with
  | nil => simp
  | cons x xs ih =>
      obtain ⟨hFirst, hRest⟩ := List.pairwise_cons.mp h
      have hHead : later order (x :: xs) x = 0 := by
        refine List.countP_eq_zero.mpr fun y hy => ?_
        rcases List.mem_cons.mp hy with rfl | hy
        · simp
        · have := hFirst y hy
          simp only [decide_eq_true_eq]
          omega
      have hTail : ∀ y ∈ xs, later order (x :: xs) y = later order xs y + 1 := by
        intro y hy
        exact List.countP_cons_of_pos (decide_eq_true (hFirst y hy))
      cases k with
      | zero =>
          rw [Nat.zero_min]
          exact List.countP_eq_zero.mpr fun y _ => by simp [Recent]
      | succ k =>
          have hRecent : (xs.countP fun y => Recent order (k + 1) (x :: xs) y) =
              xs.countP fun y => Recent order k xs y := by
            refine List.countP_congr fun y hy => ?_
            rw [decide_eq_true_iff, decide_eq_true_iff]
            show later order (x :: xs) y < k + 1 ↔ later order xs y < k
            rw [hTail y hy, Nat.add_lt_add_iff_right]
          rw [List.countP_cons_of_pos (by simp [Recent, hHead]), hRecent, ih hRest,
            List.length_cons]
          omega

/-- So many items are recent. -/
theorem countP_recent {xs : List α} (h : (xs.map order).Nodup) (k : Nat) :
    (xs.countP fun x => Recent order k xs x) = min k xs.length := by
  let sorted := xs.insertionSort fun x y => order y ≤ order x
  have hPerm : sorted.Perm xs := List.perm_insertionSort _ _
  have hNe : sorted.Pairwise fun x y => order x ≠ order y :=
    List.pairwise_map.mp ((hPerm.map order).nodup_iff.mpr h)
  have hSorted : sorted.Pairwise fun x y => order y < order x := by
    have hLe : sorted.Pairwise fun x y => order y ≤ order x := List.pairwise_insertionSort _ _
    exact hLe.imp₂ (fun _ _ hLe hNe => lt_of_le_of_ne hLe (Ne.symm hNe)) hNe
  have hCount := countP_recent_of_sorted hSorted k
  rw [hPerm.length_eq, hPerm.countP_eq] at hCount
  refine Eq.trans (List.countP_congr fun x _ => ?_) hCount
  rw [decide_eq_true_iff, decide_eq_true_iff]
  show later order xs x < k ↔ later order sorted x < k
  rw [later_perm hPerm]

end Order

section Stale

/-- What is in excess of `k` items, in a list from the first to the last. -/
def stale (k : Nat) (sorted : List α) : List α := sorted.take (sorted.length - k)

/-- What comes first all the way is a filter of the list. -/
theorem filter_append_filter {p : α → Bool} {xs : List α}
    (h : xs.Pairwise fun x y => p x = true → p y = true) :
    xs.filter (!p ·) ++ xs.filter p = xs := by
  induction xs with
  | nil => rfl
  | cons x xs ih =>
      obtain ⟨hFirst, hRest⟩ := List.pairwise_cons.mp h
      cases hx : p x with
      | true =>
          have hAll : ∀ y ∈ xs, p y = true := fun y hy => hFirst y hy hx
          have hNone : (x :: xs).filter (!p ·) = [] := by
            refine List.filter_eq_nil_iff.mpr fun y hy => ?_
            rcases List.mem_cons.mp hy with rfl | hy
            · simp [hx]
            · simp [hAll y hy]
          rw [hNone, List.nil_append, List.filter_cons_of_pos hx, List.filter_eq_self.mpr hAll]
      | false =>
          rw [List.filter_cons_of_pos (by simp [hx]), List.filter_cons_of_neg (by simp [hx]),
            List.cons_append, ih hRest]

variable {order : α → Nat} {key : α → κ} [LinearOrder κ]

/-- Judging by the key removes what it should when the keys of the last items are larger than
those of the others. -/
theorem mem_stale_iff {k : Nat} {xs sorted : List α} (hPerm : sorted.Perm xs)
    (hSorted : sorted.Pairwise fun x y => key x ≤ key y) (hOrder : (xs.map order).Nodup)
    (hKey : ∀ x ∈ xs, ∀ y ∈ xs, Recent order k xs x → ¬ Recent order k xs y → key y < key x)
    {x : α} (hx : x ∈ xs) : x ∈ stale k sorted ↔ ¬ Recent order k xs x := by
  let recent : α → Bool := fun x => Recent order k xs x
  have hSplit : sorted.filter (!recent ·) ++ sorted.filter recent = sorted := by
    refine filter_append_filter (hSorted.imp_of_mem fun {x y} hx hy hLe hRecent => ?_)
    by_contra hOld
    have hLt := hKey x (hPerm.mem_iff.mp hx) y (hPerm.mem_iff.mp hy) (of_decide_eq_true hRecent)
      fun hY => hOld (decide_eq_true hY)
    exact absurd hLe (not_le.mpr hLt)
  have hKept : (sorted.filter recent).length = min k sorted.length := by
    rw [← List.countP_eq_length_filter, hPerm.countP_eq, hPerm.length_eq]
    exact countP_recent hOrder k
  have hLengths := congrArg List.length hSplit
  rw [List.length_append] at hLengths
  have hStale : stale k sorted = sorted.filter (!recent ·) := by
    have hCut : sorted.length - k = (sorted.filter (!recent ·)).length := by omega
    rw [stale, hCut]
    exact (congrArg (List.take _) hSplit.symm).trans List.take_left
  rw [hStale, List.mem_filter]
  simp [recent, hPerm.mem_iff, hx]

end Stale

end Retention
