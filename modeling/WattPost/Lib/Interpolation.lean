import Mathlib.Algebra.Order.Field.Basic
import Mathlib.Data.List.Basic
import Mathlib.Tactic.Linarith

/-! Samples at increasing times, with gaps, and what they say between the samples: the
straight line between two neighbours, if both have a value. Also where a cursor into the
times stands for a given instant. -/
namespace Interpolation

/-! ### The line between two samples -/

section Line

variable {K : Type} [Field K]

/-- The line through two samples. -/
def lerp (t0 t1 : ℤ) (v0 v1 : K) (t : ℤ) : K :=
  v0 + (v1 - v0) * (((t : K) - t0) / ((t1 : K) - t0))

variable [LinearOrder K] [IsStrictOrderedRing K] {t0 t t1 : ℤ}

/-- How far along an instant between two others is. -/
theorem fraction_mem (h0 : t0 < t) (h1 : t < t1) :
    0 ≤ ((t : K) - t0) / ((t1 : K) - t0) ∧ ((t : K) - t0) / ((t1 : K) - t0) ≤ 1 := by
  have hStart : (t0 : K) < t := Int.cast_lt.mpr h0
  have hEnd : (t : K) < t1 := Int.cast_lt.mpr h1
  have hWidth : (0 : K) < (t1 : K) - t0 := by linarith
  refine ⟨div_nonneg (by linarith) hWidth.le, (div_le_one hWidth).mpr (by linarith)⟩

/-- Between the samples the line stays between their values. -/
theorem lerp_mem (h0 : t0 < t) (h1 : t < t1) (v0 v1 : K) :
    min v0 v1 ≤ lerp t0 t1 v0 v1 t ∧ lerp t0 t1 v0 v1 t ≤ max v0 v1 := by
  obtain ⟨hLow, hHigh⟩ := fraction_mem (K := K) h0 h1
  unfold lerp
  generalize ((t : K) - t0) / ((t1 : K) - t0) = part at hLow hHigh
  rcases le_total v0 v1 with hUp | hDown
  · rw [min_eq_left hUp, max_eq_right hUp]
    have hPart : 0 ≤ (v1 - v0) * part := mul_nonneg (sub_nonneg.mpr hUp) hLow
    have hWhole : (v1 - v0) * part ≤ v1 - v0 := mul_le_of_le_one_right (sub_nonneg.mpr hUp) hHigh
    exact ⟨by linarith, by linarith⟩
  · rw [min_eq_right hDown, max_eq_left hDown]
    have hPart : 0 ≤ (v0 - v1) * part := mul_nonneg (sub_nonneg.mpr hDown) hLow
    have hWhole : (v0 - v1) * part ≤ v0 - v1 := mul_le_of_le_one_right (sub_nonneg.mpr hDown) hHigh
    have hSign : (v1 - v0) * part = -((v0 - v1) * part) := by
      rw [← neg_mul, neg_sub]
    exact ⟨by linarith, by linarith⟩

end Line

/-! ### What samples say of an instant -/

section Samples

variable {K : Type} [Field K]

/-- What samples say of an instant: nothing outside their range; at a sample, the sample;
between two of them nothing if one is a gap, and the line otherwise. -/
structure Interpolates (ts : List ℤ) (vs : List (Option K)) (t : ℤ) (out : Option K) : Prop where
  outside : (∀ first ∈ ts.head?, t < first) ∨ (∀ last ∈ ts.getLast?, last < t) → out = none
  hit : ∀ i : Nat, ts[i]? = some t → vs[i]? = some out
  gap : ∀ (i : Nat) (t0 t1 : ℤ), ts[i]? = some t0 → ts[i + 1]? = some t1 → t0 < t → t < t1 →
    vs[i]? = some none ∨ vs[i + 1]? = some none → out = none
  between : ∀ (i : Nat) (t0 t1 : ℤ) (v0 v1 : K), ts[i]? = some t0 → ts[i + 1]? = some t1 →
    t0 < t → t < t1 → vs[i]? = some (some v0) → vs[i + 1]? = some (some v1) →
    out = some (lerp t0 t1 v0 v1 t)

/-- Where an instant lies. -/
theorem place (ts : List ℤ) (t : ℤ) :
    ((∀ first ∈ ts.head?, t < first) ∨ (∀ last ∈ ts.getLast?, last < t)) ∨
      (∃ i : Nat, ts[i]? = some t) ∨
      ∃ (i : Nat) (t0 t1 : ℤ), ts[i]? = some t0 ∧ ts[i + 1]? = some t1 ∧ t0 < t ∧ t < t1 := by
  induction ts with
  | nil => exact Or.inl (Or.inl fun _ h => nomatch h)
  | cons a rest ih =>
      rcases lt_trichotomy t a with hBefore | rfl | hAfter
      · exact Or.inl (Or.inl fun first h => Option.some.inj h ▸ hBefore)
      · exact Or.inr (Or.inl ⟨0, rfl⟩)
      · cases rest with
        | nil => exact Or.inl (Or.inr fun last h => Option.some.inj h ▸ hAfter)
        | cons b rest =>
            rcases ih with (hFirst | hLast) | ⟨i, hi⟩ | ⟨i, t0, t1, h0, h1, hBetween⟩
            · exact Or.inr (Or.inr ⟨0, a, b, rfl, rfl, hAfter, hFirst b rfl⟩)
            · exact Or.inl (Or.inr hLast)
            · exact Or.inr (Or.inl ⟨i + 1, hi⟩)
            · exact Or.inr (Or.inr ⟨i + 1, t0, t1, h0, h1, hBetween⟩)

/-- Samples say one thing only. -/
theorem Interpolates.unique {ts : List ℤ} {vs : List (Option K)} (hLen : ts.length = vs.length)
    {t : ℤ} {a b : Option K} (ha : Interpolates ts vs t a) (hb : Interpolates ts vs t b) :
    a = b := by
  rcases place ts t with hOut | ⟨i, hi⟩ | ⟨i, t0, t1, h0, h1, hLow, hHigh⟩
  · rw [ha.outside hOut, hb.outside hOut]
  · exact Option.some.inj ((ha.hit i hi).symm.trans (hb.hit i hi))
  · have hNext : i + 1 < vs.length := hLen ▸ (List.getElem?_eq_some_iff.mp h1).1
    obtain ⟨x, hx⟩ : ∃ x, vs[i]? = some x := ⟨_, List.getElem?_eq_getElem (by omega)⟩
    obtain ⟨y, hy⟩ : ∃ y, vs[i + 1]? = some y := ⟨_, List.getElem?_eq_getElem hNext⟩
    cases x with
    | none =>
        have hGap := Or.inl (b := vs[i + 1]? = some none) hx
        rw [ha.gap i t0 t1 h0 h1 hLow hHigh hGap, hb.gap i t0 t1 h0 h1 hLow hHigh hGap]
    | some v0 =>
        cases y with
        | none =>
            have hGap := Or.inr (a := vs[i]? = some none) hy
            rw [ha.gap i t0 t1 h0 h1 hLow hHigh hGap, hb.gap i t0 t1 h0 h1 hLow hHigh hGap]
        | some v1 =>
            rw [ha.between i t0 t1 v0 v1 h0 h1 hLow hHigh hx hy,
              hb.between i t0 t1 v0 v1 h0 h1 hLow hHigh hx hy]

end Samples

/-! ### Cursors -/

section Cursor

variable {ts : List ℤ} {t : ℤ} {i j : Nat}

/-- A cursor at the last time that is not after the instant, or at the first time. -/
structure AtPlace (ts : List ℤ) (t : ℤ) (j : Nat) : Prop where
  reached : j = 0 ∨ ∃ s, ts[j]? = some s ∧ s ≤ t
  stops : ∀ s, ts[j + 1]? = some s → t < s

theorem getElem?_le (hInc : ts.Pairwise (· < ·)) {a b : ℤ} (ha : ts[i]? = some a)
    (hb : ts[j]? = some b) (hij : i ≤ j) : a ≤ b := by
  obtain ⟨hi, rfl⟩ := List.getElem?_eq_some_iff.mp ha
  obtain ⟨hj, rfl⟩ := List.getElem?_eq_some_iff.mp hb
  rcases Nat.lt_or_eq_of_le hij with hLt | rfl
  · exact (List.pairwise_iff_getElem.mp hInc i j hi hj hLt).le
  · exact le_rfl

/-- The cursor is where the instant lies. -/
theorem AtPlace.eq (hInc : ts.Pairwise (· < ·)) (h : AtPlace ts t j) {s : ℤ}
    (hi : ts[i]? = some s) (hs : s ≤ t) (hNext : ∀ s, ts[i + 1]? = some s → t < s) : i = j := by
  have hLt : i < ts.length := (List.getElem?_eq_some_iff.mp hi).1
  rcases Nat.lt_trichotomy i j with hBefore | hEq | hAfter
  · rcases h.reached with rfl | ⟨s', hs', hLe⟩
    · exact absurd hBefore (Nat.not_lt_zero i)
    · have hj : j < ts.length := (List.getElem?_eq_some_iff.mp hs').1
      have hSucc : ts[i + 1]? = some ts[i + 1] := List.getElem?_eq_getElem (by omega)
      have hOrder := getElem?_le hInc hSucc hs' hBefore
      have hStop := hNext _ hSucc
      omega
  · exact hEq
  · have hSucc : ts[j + 1]? = some ts[j + 1] := List.getElem?_eq_getElem (by omega)
    have hOrder := getElem?_le hInc hSucc hi hAfter
    have hStop := h.stops _ hSucc
    omega

/-- At a sample the cursor is at that sample. -/
theorem AtPlace.eq_of_hit (hInc : ts.Pairwise (· < ·)) (h : AtPlace ts t j)
    (hi : ts[i]? = some t) : i = j := by
  refine h.eq hInc hi le_rfl fun s hs => ?_
  obtain ⟨hLt, rfl⟩ := List.getElem?_eq_some_iff.mp hi
  obtain ⟨hNext, rfl⟩ := List.getElem?_eq_some_iff.mp hs
  exact List.pairwise_iff_getElem.mp hInc i (i + 1) hLt hNext (Nat.lt_succ_self i)

/-- Between two samples it is at the earlier. -/
theorem AtPlace.eq_of_between (hInc : ts.Pairwise (· < ·)) (h : AtPlace ts t j) {t0 t1 : ℤ}
    (h0 : ts[i]? = some t0) (h1 : ts[i + 1]? = some t1) (hLow : t0 < t) (hHigh : t < t1) :
    i = j := by
  refine h.eq hInc h0 hLow.le fun s hs => ?_
  rw [h1] at hs
  exact Option.some.inj hs ▸ hHigh

end Cursor

end Interpolation
