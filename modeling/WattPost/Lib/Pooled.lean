import Mathlib.Algebra.BigOperators.Group.List.Basic
import Mathlib.Algebra.BigOperators.Ring.List
import Mathlib.Algebra.Order.BigOperators.Group.List
import Mathlib.Algebra.Order.Field.Basic

/-! Means and pooled ratios of lists: a mean lies between two of its terms, and a
sum of shares over a sum of wholes is not below every single share. -/
namespace Pooled

variable {ι K : Type} [Field K] [LinearOrder K] [IsStrictOrderedRing K]

/-- The mean lies between two of the terms. -/
theorem mean_between {l : List ι} (hl : l ≠ []) (f : ι → K) :
    (∃ x ∈ l, f x ≤ (l.map f).sum / l.length) ∧ ∃ x ∈ l, (l.map f).sum / l.length ≤ f x := by
  have hLength : (l.length : K) ≠ 0 := by
    rw [Nat.cast_ne_zero, Ne, List.length_eq_zero_iff]
    exact hl
  have hConst : (l.map fun _ => (l.map f).sum / l.length).sum = (l.map f).sum := by
    rw [List.map_const', List.sum_replicate, nsmul_eq_mul, mul_div_cancel₀ _ hLength]
  exact ⟨List.exists_le_of_sum_le hl f _ hConst.ge, List.exists_le_of_sum_le hl _ f hConst.le⟩

/-- Some share of its own whole is at most the pooled share. -/
theorem exists_ratio_le {l : List ι} (hl : l ≠ []) (part whole : ι → K)
    (hWhole : ∀ x ∈ l, 0 < whole x) {total : K} (hTotal : (l.map part).sum ≤ total) :
    ∃ x ∈ l, part x / whole x ≤ total / (l.map whole).sum := by
  have hSum : 0 < (l.map whole).sum := by
    have hLt := List.sum_lt_sum_of_ne_nil hl (fun _ => (0 : K)) whole hWhole
    simpa using hLt
  have hScaled : (l.map fun x => total / (l.map whole).sum * whole x).sum = total := by
    rw [List.sum_map_mul_left, div_mul_cancel₀ _ hSum.ne']
  obtain ⟨x, hx, hLe⟩ := List.exists_le_of_sum_le hl part
    (fun x => total / (l.map whole).sum * whole x) (hTotal.trans hScaled.ge)
  exact ⟨x, hx, (div_le_iff₀ (hWhole x hx)).mpr hLe⟩

end Pooled
