import WattPost.Lib.Interpolation
import WattPost.Weather.Instants

/-! The cloud-cover overlay: hourly samples laid on the chart's grid. One cursor serves
all points of the grid, since these come in order. -/
namespace WattPost.Weather

open Interpolation

/-! ### The code -/

/-- `_grid`: the multiples of the bucket, from the one that `since` is in. -/
def grid (since untilTs bucketS : Int) : List Int :=
  let start := since - since % bucketS
  (List.range ((untilTs - start) / bucketS + 1).toNat).map fun i : Nat => start + i * bucketS

/-- The `while` loop of `_interp`. -/
def advance (srcTs : List Int) (t : Int) (j : Nat) : Nat :=
  if j + 1 < srcTs.length ∧ srcTs.getD (j + 1) 0 ≤ t then advance srcTs t (j + 1) else j
termination_by srcTs.length - j

/-- What `_interp` appends for one point of the grid, once the cursor has moved. -/
def interpAt (srcTs : List Int) (srcV : List (Option ℚ)) (t : Int) (j : Nat) : Option ℚ :=
  if t < srcTs.headD 0 ∨ srcTs.getLastD 0 < t then none
  else if srcTs.length ≤ j + 1 then srcV.getD j none
  else
    let t0 := srcTs.getD j 0
    let t1 := srcTs.getD (j + 1) 0
    let v0 := srcV.getD j none
    let v1 := srcV.getD (j + 1) none
    if t = t0 then v0
    else if t = t1 then v1
    else
      match v0, v1 with
      | some v0, some v1 =>
          if t1 = t0 then some v0
          else
            let frac : ℚ := ((t : ℚ) - t0) / ((t1 : ℚ) - t0)
            some (v0 + (v1 - v0) * frac)
      | _, _ => none

/-- The loop of `_interp` over the grid. -/
def interpFrom (srcTs : List Int) (srcV : List (Option ℚ)) : Nat → List Int → List (Option ℚ)
  | _, [] => []
  | j, t :: rest =>
      let j := advance srcTs t j
      interpAt srcTs srcV t j :: interpFrom srcTs srcV j rest

def interp (gridTs srcTs : List Int) (srcV : List (Option ℚ)) : List (Option ℚ) :=
  if srcTs = [] then List.replicate gridTs.length none else interpFrom srcTs srcV 0 gridTs

/-! ### The grid -/

/-- The points of the grid come in order. -/
theorem grid_sorted (since untilTs : Int) {bucketS : Int} (h : 0 < bucketS) :
    (grid since untilTs bucketS).Pairwise (· ≤ ·) := by
  rw [grid, List.pairwise_map]
  refine List.pairwise_lt_range.imp fun {a b} hLt => ?_
  have hScaled : (a : Int) * bucketS ≤ b * bucketS :=
    Int.mul_le_mul_of_nonneg_right (by omega) h.le
  omega

/-- The samples of an answer have a value or a gap each. -/
theorem length_fetchOpenMeteoHourly (times : List String) (cloudCover : List (Option ℚ)) :
    (fetchOpenMeteoHourly times cloudCover).1.length =
      (fetchOpenMeteoHourly times cloudCover).2.length := by
  rw [fetchOpenMeteoHourly, List.unzip_eq_map, List.length_map, List.length_map]

/-! ### The cursor -/

theorem getD_eq_of_getElem? {α : Type} {xs : List α} {i : Nat} {x d : α} (h : xs[i]? = some x) :
    xs.getD i d = x := by
  rw [List.getD_eq_getElem?_getD, h]
  rfl

theorem getElem?_eq_getD {α : Type} {xs : List α} {i : Nat} {d : α} (h : i < xs.length) :
    xs[i]? = some (xs.getD i d) := by
  have hGet := List.getElem?_eq_getElem h
  rw [hGet, getD_eq_of_getElem? hGet]

/-- The cursor moves to its place, if it was not past it. -/
theorem atPlace_advance {srcTs : List Int} {t : Int} {j : Nat}
    (h : j = 0 ∨ ∃ s, srcTs[j]? = some s ∧ s ≤ t) : AtPlace srcTs t (advance srcTs t j) := by
  fun_induction advance srcTs t j with
  | case1 j hMove ih =>
      refine ih (Or.inr ⟨srcTs.getD (j + 1) 0, ?_, hMove.2⟩)
      exact getElem?_eq_getD hMove.1
  | case2 j hStay =>
      refine ⟨h, fun s hs => ?_⟩
      by_contra hNot
      refine hStay ⟨(List.getElem?_eq_some_iff.mp hs).1, ?_⟩
      rw [getD_eq_of_getElem? hs]
      omega

/-! ### One point -/

theorem getElem?_zero_eq {srcTs : List Int} (h : srcTs ≠ []) :
    srcTs[0]? = some (srcTs.headD 0) := by
  cases srcTs with
  | nil => exact absurd rfl h
  | cons a rest => rfl

theorem getElem?_last_eq {srcTs : List Int} (h : srcTs ≠ []) :
    srcTs[srcTs.length - 1]? = some (srcTs.getLastD 0) := by
  rw [← List.getLast?_eq_getElem?, List.getLast?_eq_some_getLast h, List.getLastD_eq_getLast?,
    List.getLast?_eq_some_getLast h]
  rfl

/-- An instant at a sample, or between two, is in the range. -/
theorem inside {srcTs : List Int} (hInc : srcTs.Pairwise (· < ·)) {t t0 s : Int} {i k : Nat}
    (h0 : srcTs[i]? = some t0) (hLow : t0 ≤ t) (hk : srcTs[k]? = some s) (hHigh : t ≤ s) :
    ¬(t < srcTs.headD 0 ∨ srcTs.getLastD 0 < t) := by
  have hNonempty : srcTs ≠ [] := by
    rintro rfl
    cases h0
  have hkLt : k < srcTs.length := (List.getElem?_eq_some_iff.mp hk).1
  have hHead := getElem?_le hInc (getElem?_zero_eq hNonempty) h0 (Nat.zero_le i)
  have hLast := getElem?_le hInc hk (getElem?_last_eq hNonempty) (by omega)
  omega

/-- At its place the cursor gives what the samples say. -/
theorem interpolates_interpAt {srcTs : List Int} {srcV : List (Option ℚ)}
    (hLen : srcTs.length = srcV.length) (hInc : srcTs.Pairwise (· < ·)) (hNonempty : srcTs ≠ [])
    {t : Int} {j : Nat} (h : AtPlace srcTs t j) :
    Interpolates srcTs srcV t (interpAt srcTs srcV t j) where
  outside := by
    intro hOut
    refine if_pos (hOut.imp (fun hFirst => hFirst _ ?_) fun hLast => hLast _ ?_)
    · rw [List.head?_eq_getElem?]
      exact getElem?_zero_eq hNonempty
    · rw [List.getLast?_eq_getElem?]
      exact getElem?_last_eq hNonempty
  hit := by
    intro i hi
    obtain rfl := h.eq_of_hit hInc hi
    have hLt : i < srcV.length := hLen ▸ (List.getElem?_eq_some_iff.mp hi).1
    have hHere : t = srcTs.getD i 0 := (getD_eq_of_getElem? hi).symm
    rw [getElem?_eq_getD hLt, interpAt, if_neg (inside hInc hi le_rfl hi le_rfl)]
    split_ifs
    · rfl
    · exact congrArg some (if_pos hHere).symm
  gap := by
    intro i t0 t1 h0 h1 hLow hHigh hGap
    obtain rfl := h.eq_of_between hInc h0 h1 hLow hHigh
    have hNext : ¬srcTs.length ≤ i + 1 := Nat.not_le.mpr (List.getElem?_eq_some_iff.mp h1).1
    rw [interpAt, if_neg (inside hInc h0 hLow.le h1 hHigh.le), if_neg hNext,
      getD_eq_of_getElem? h0, getD_eq_of_getElem? h1]
    simp only [if_neg hLow.ne', if_neg hHigh.ne]
    rcases hGap with hGap | hGap
    · rw [getD_eq_of_getElem? hGap]
    · have hNone : srcV.getD (i + 1) none = none := getD_eq_of_getElem? hGap
      rw [hNone]
      cases srcV.getD i none <;> rfl
  between := by
    intro i t0 t1 v0 v1 h0 h1 hLow hHigh hv0 hv1
    obtain rfl := h.eq_of_between hInc h0 h1 hLow hHigh
    have hNext : ¬srcTs.length ≤ i + 1 := Nat.not_le.mpr (List.getElem?_eq_some_iff.mp h1).1
    rw [interpAt, if_neg (inside hInc h0 hLow.le h1 hHigh.le), if_neg hNext,
      getD_eq_of_getElem? h0, getD_eq_of_getElem? h1, getD_eq_of_getElem? hv0,
      getD_eq_of_getElem? hv1]
    simp only [if_neg hLow.ne', if_neg hHigh.ne, if_neg (hLow.trans hHigh).ne']
    rfl

/-! ### The whole grid -/

@[simp] theorem length_interpFrom (srcTs : List Int) (srcV : List (Option ℚ)) (j : Nat)
    (gridTs : List Int) : (interpFrom srcTs srcV j gridTs).length = gridTs.length := by
  induction gridTs generalizing j with
  | nil => rfl
  | cons t rest ih => rw [interpFrom, List.length_cons, ih, List.length_cons]

theorem length_interp (gridTs srcTs : List Int) (srcV : List (Option ℚ)) :
    (interp gridTs srcTs srcV).length = gridTs.length := by
  unfold interp
  split_ifs
  · exact List.length_replicate
  · exact length_interpFrom ..

/-- Whatever the earlier points were, the cursor is not past the next one. -/
theorem interpolates_interpFrom {srcTs : List Int} {srcV : List (Option ℚ)}
    (hLen : srcTs.length = srcV.length) (hInc : srcTs.Pairwise (· < ·)) (hNonempty : srcTs ≠ [])
    {gridTs : List Int} (hGrid : gridTs.Pairwise (· ≤ ·)) {j : Nat}
    (hj : j = 0 ∨ ∃ s, srcTs[j]? = some s ∧ ∀ t ∈ gridTs, s ≤ t) {k : Nat} {t : Int}
    {out : Option ℚ} (hk : gridTs[k]? = some t)
    (hOut : (interpFrom srcTs srcV j gridTs)[k]? = some out) : Interpolates srcTs srcV t out := by
  induction gridTs generalizing j k with
  | nil => cases hk
  | cons first rest ih =>
      obtain ⟨hFirst, hRest⟩ := List.pairwise_cons.mp hGrid
      have hPlace : AtPlace srcTs first (advance srcTs first j) := by
        refine atPlace_advance (hj.imp id ?_)
        rintro ⟨s, hs, hLe⟩
        exact ⟨s, hs, hLe first (List.mem_cons_self ..)⟩
      cases k with
      | zero =>
          cases hk
          cases hOut
          exact interpolates_interpAt hLen hInc hNonempty hPlace
      | succ k =>
          refine ih hRest (hPlace.reached.imp id ?_) hk hOut
          rintro ⟨s, hs, hLe⟩
          exact ⟨s, hs, fun t ht => hLe.trans (hFirst t ht)⟩

theorem interp_entry {srcTs : List Int} {srcV : List (Option ℚ)}
    (hLen : srcTs.length = srcV.length) (hInc : srcTs.Pairwise (· < ·)) {gridTs : List Int}
    (hGrid : gridTs.Pairwise (· ≤ ·)) {k : Nat} {t : Int} {out : Option ℚ}
    (hk : gridTs[k]? = some t) (hOut : (interp gridTs srcTs srcV)[k]? = some out) :
    Interpolates srcTs srcV t out := by
  unfold interp at hOut
  split_ifs at hOut with hEmpty
  · subst hEmpty
    have hNone : out = none := List.eq_of_mem_replicate (List.mem_of_getElem? hOut)
    exact ⟨fun _ => hNone, fun i hi => (nomatch hi), fun i t0 t1 h0 => (nomatch h0),
      fun i t0 t1 v0 v1 h0 => (nomatch h0)⟩
  · exact interpolates_interpFrom hLen hInc hEmpty hGrid (Or.inl rfl) hk hOut

/-- **Overlay interpolation.** On a grid in order, each entry is what the samples say of
its point, and an interpolated entry lies between its neighbours. -/
theorem interp_interpolates {srcTs : List Int} {srcV : List (Option ℚ)}
    (hLen : srcTs.length = srcV.length) (hInc : srcTs.Pairwise (· < ·))
    {gridTs : List Int} (hGrid : gridTs.Pairwise (· ≤ ·)) :
    (interp gridTs srcTs srcV).length = gridTs.length ∧
      ∀ (k : Nat) (t : Int) (out : Option ℚ), gridTs[k]? = some t →
        (interp gridTs srcTs srcV)[k]? = some out →
        Interpolates srcTs srcV t out ∧
          ∀ (i : Nat) (t0 t1 : Int) (v0 v1 : ℚ), srcTs[i]? = some t0 → srcTs[i + 1]? = some t1 →
            t0 < t → t < t1 → srcV[i]? = some (some v0) → srcV[i + 1]? = some (some v1) →
            ∃ v, out = some v ∧ min v0 v1 ≤ v ∧ v ≤ max v0 v1 := by
  refine ⟨length_interp gridTs srcTs srcV, fun k t out hk hOut => ?_⟩
  have hSays := interp_entry hLen hInc hGrid hk hOut
  refine ⟨hSays, fun i t0 t1 v0 v1 h0 h1 hLow hHigh hv0 hv1 => ?_⟩
  exact ⟨_, hSays.between i t0 t1 v0 v1 h0 h1 hLow hHigh hv0 hv1, lerp_mem hLow hHigh v0 v1⟩

/-- A point of the chart between two hours, and one beyond the last. -/
theorem interp_interpolates_example :
    (interp [1800, 9000] [0, 3600] [some 40, some 60]).length = [(1800 : Int), 9000].length ∧
      ∀ (k : Nat) (t : Int) (out : Option ℚ), [(1800 : Int), 9000][k]? = some t →
        (interp [1800, 9000] [0, 3600] [some 40, some 60])[k]? = some out →
        Interpolates [0, 3600] [some 40, some 60] t out ∧
          ∀ (i : Nat) (t0 t1 : Int) (v0 v1 : ℚ), [(0 : Int), 3600][i]? = some t0 →
            [(0 : Int), 3600][i + 1]? = some t1 → t0 < t → t < t1 →
            [some (40 : ℚ), some 60][i]? = some (some v0) →
            [some (40 : ℚ), some 60][i + 1]? = some (some v1) →
            ∃ v, out = some v ∧ min v0 v1 ≤ v ∧ v ≤ max v0 v1 :=
  interp_interpolates rfl (by decide) (by decide)

/-- What is drawn at a point does not depend on the rest of the grid. -/
theorem interp_grid_independent {srcTs : List Int} {srcV : List (Option ℚ)}
    (hLen : srcTs.length = srcV.length) (hInc : srcTs.Pairwise (· < ·))
    {gridTs gridTs' : List Int} (hGrid : gridTs.Pairwise (· ≤ ·))
    (hGrid' : gridTs'.Pairwise (· ≤ ·)) {k k' : Nat} {t : Int} {out out' : Option ℚ}
    (hk : gridTs[k]? = some t) (hk' : gridTs'[k']? = some t)
    (hOut : (interp gridTs srcTs srcV)[k]? = some out)
    (hOut' : (interp gridTs' srcTs srcV)[k']? = some out') : out = out' := by
  have hSays := interp_entry hLen hInc hGrid hk hOut
  exact hSays.unique hLen (interp_entry hLen hInc hGrid' hk' hOut')

/-- The chart's own grid and the samples of an answer: the overlay says what these say. -/
theorem overlay_entry {times : List String} {cloudCover : List (Option ℚ)}
    (hInc : (fetchOpenMeteoHourly times cloudCover).1.Pairwise (· < ·)) (since untilTs : Int)
    {bucketS : Int} (hBucket : 0 < bucketS) {k : Nat} {t : Int} {out : Option ℚ}
    (hk : (grid since untilTs bucketS)[k]? = some t)
    (hOut : (interp (grid since untilTs bucketS) (fetchOpenMeteoHourly times cloudCover).1
      (fetchOpenMeteoHourly times cloudCover).2)[k]? = some out) :
    Interpolates (fetchOpenMeteoHourly times cloudCover).1
      (fetchOpenMeteoHourly times cloudCover).2 t out :=
  interp_entry (length_fetchOpenMeteoHourly times cloudCover) hInc
    (grid_sorted since untilTs hBucket) hk hOut

end WattPost.Weather
