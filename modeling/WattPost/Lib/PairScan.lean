import Mathlib.Algebra.BigOperators.Group.List.Basic
import Mathlib.Algebra.Order.Monoid.Defs
import Mathlib.Data.List.Dedup

/-! Loops over a list that keep the item before: what they add up over each two
neighbours, and what that is when neighbours of different kinds add nothing. -/
namespace PairScan

variable {α K M : Type} [AddCommMonoid M]

/-- One turn of the loop: the item before, and what was added up so far. -/
def scan (f : α → α → M) (s : Option α × M) (x : α) : Option α × M :=
  (some x, s.1.elim s.2 fun before => s.2 + f before x)

/-- The sum over the pairs of neighbours. -/
def pairSum (f : α → α → M) : List α → M
  | [] => 0
  | [_] => 0
  | x :: y :: rest => f x y + pairSum f (y :: rest)

theorem foldl_scan_some (f : α → α → M) (xs : List α) (before : α) (total : M) :
    (xs.foldl (scan f) (some before, total)).2 = total + pairSum f (before :: xs) := by
  induction xs generalizing before total with
  | nil => simp [pairSum]
  | cons x xs ih =>
      rw [List.foldl_cons, pairSum, ← add_assoc]
      exact ih x (total + f before x)

/-- The loop adds up the pairs of neighbours. -/
theorem foldl_scan (f : α → α → M) (xs : List α) :
    (xs.foldl (scan f) (none, 0)).2 = pairSum f xs := by
  cases xs with
  | nil => rfl
  | cons x xs =>
      rw [List.foldl_cons]
      exact (foldl_scan_some f xs x 0).trans (zero_add _)

theorem pairSum_map {β : Type} (f : α → α → M) (g : β → α) (xs : List β) :
    pairSum f (xs.map g) = pairSum (fun a b => f (g a) (g b)) xs := by
  induction xs with
  | nil => rfl
  | cons x xs ih =>
      cases xs with
      | nil => rfl
      | cons y rest => exact congrArg (f (g x) (g y) + ·) ih

theorem pairSum_congr {f g : α → α → M} {xs : List α}
    (h : ∀ a ∈ xs, ∀ b ∈ xs, f a b = g a b) : pairSum f xs = pairSum g xs := by
  induction xs with
  | nil => rfl
  | cons x xs ih =>
      cases xs with
      | nil => rfl
      | cons y rest =>
          have hRest := ih fun a ha b hb => h a (List.mem_cons_of_mem x ha) b
            (List.mem_cons_of_mem x hb)
          rw [pairSum, pairSum, hRest, h x List.mem_cons_self y (by simp)]

/-- The items of one kind. -/
def ofKind [DecidableEq K] (kind : α → K) (k : K) (xs : List α) : List α :=
  xs.filter fun x => kind x = k

/-- In a list sorted by kind, where only neighbours of one kind count, the sum is
the sum over the kinds. -/
theorem pairSum_byKind [LinearOrder K] (kind : α → K) (f : α → α → M) {xs : List α}
    (hSorted : xs.Pairwise fun a b => kind a ≤ kind b)
    (hCross : ∀ a b, kind a ≠ kind b → f a b = 0) {kinds : List K} (hNodup : kinds.Nodup)
    (hKinds : ∀ x ∈ xs, kind x ∈ kinds) :
    pairSum f xs = (kinds.map fun k => pairSum f (ofKind kind k xs)).sum := by
  induction xs with
  | nil => simp [ofKind, pairSum]
  | cons x xs ih =>
      obtain ⟨hHead, hTail⟩ := List.pairwise_cons.mp hSorted
      have hRest := ih hTail fun y hy => hKinds y (List.mem_cons_of_mem x hy)
      cases xs with
      | nil =>
          have hNil : ∀ k, pairSum f (ofKind kind k [x]) = 0 := by
            intro k
            by_cases hk : kind x = k <;> simp [ofKind, hk, pairSum]
          simp [hNil, pairSum]
      | cons y rest =>
          -- the first item adds to its own kind, and only when that goes on
          have hOne : ∀ k, pairSum f (ofKind kind k (x :: y :: rest)) =
              (if k = kind x then f x y else 0) + pairSum f (ofKind kind k (y :: rest)) := by
            intro k
            by_cases hk : k = kind x
            · subst hk
              by_cases hy : kind y = kind x
              · simp [ofKind, hy, pairSum]
              · have hLt : kind x < kind y := lt_of_le_of_ne (hHead y List.mem_cons_self)
                  (Ne.symm hy)
                have hGone : ofKind kind (kind x) (y :: rest) = [] := by
                  apply List.filter_eq_nil_iff.mpr
                  intro z hz
                  have hyz : kind y ≤ kind z := by
                    rcases List.mem_cons.mp hz with rfl | hz
                    · exact le_rfl
                    · exact (List.pairwise_cons.mp hTail).1 z hz
                  simpa using (lt_of_lt_of_le hLt hyz).ne'
                have hOnly : ofKind kind (kind x) (x :: y :: rest) = [x] := by
                  rw [ofKind, List.filter_cons_of_pos (by simp)]
                  exact congrArg (x :: ·) hGone
                rw [hOnly, hGone, if_pos rfl, hCross x y (Ne.symm hy)]
                simp [pairSum]
            · rw [if_neg hk, zero_add]
              congr 1
              simp [ofKind, Ne.symm hk]
          have hMem := hKinds x List.mem_cons_self
          rw [pairSum, hRest, List.map_congr_left fun k _ => hOne k, List.sum_map_add,
            List.sum_map_eq_nsmul_single (kind x) _ (fun k hk _ => if_neg hk),
            List.count_eq_one_of_mem hNodup hMem, one_nsmul, if_pos rfl]

theorem pairSum_add (f g : α → α → M) (xs : List α) :
    pairSum (fun a b => f a b + g a b) xs = pairSum f xs + pairSum g xs := by
  induction xs with
  | nil => simp [pairSum]
  | cons x xs ih =>
      cases xs with
      | nil => simp [pairSum]
      | cons y rest =>
          rw [pairSum, pairSum, pairSum, ih]
          exact add_add_add_comm _ _ _ _

/-! ### Neighbours that add nothing below zero -/

section Order

variable [PartialOrder M] [IsOrderedAddMonoid M] {f : α → α → M} {xs : List α}

theorem pairSum_nonneg (hNonneg : xs.IsChain fun a b => 0 ≤ f a b) : 0 ≤ pairSum f xs := by
  induction xs with
  | nil => exact le_rfl
  | cons x xs ih =>
      cases xs with
      | nil => exact le_rfl
      | cons y rest =>
          obtain ⟨hHead, hTail⟩ := List.isChain_cons_cons.mp hNonneg
          exact add_nonneg hHead (ih hTail)

theorem pairSum_eq_zero_iff (hNonneg : xs.IsChain fun a b => 0 ≤ f a b) :
    pairSum f xs = 0 ↔ xs.IsChain fun a b => f a b = 0 := by
  induction xs with
  | nil => simp [pairSum]
  | cons x xs ih =>
      cases xs with
      | nil => simp [pairSum]
      | cons y rest =>
          obtain ⟨hHead, hTail⟩ := List.isChain_cons_cons.mp hNonneg
          rw [pairSum, add_eq_zero_iff_of_nonneg hHead (pairSum_nonneg hTail), ih hTail,
            List.isChain_cons_cons]

end Order

/-- Along a chain two relations may be exchanged where its links make them equal. -/
theorem isChain_congr {R S T : α → α → Prop} {xs : List α} (hChain : xs.IsChain R)
    (h : ∀ a b, R a b → (S a b ↔ T a b)) : xs.IsChain S ↔ xs.IsChain T := by
  induction xs with
  | nil => simp
  | cons x xs ih =>
      cases xs with
      | nil => simp
      | cons y rest =>
          obtain ⟨hHead, hTail⟩ := List.isChain_cons_cons.mp hChain
          rw [List.isChain_cons_cons, List.isChain_cons_cons, h x y hHead, ih hTail]

end PairScan
