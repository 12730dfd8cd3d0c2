import WattPost.Storage.Rollup

/-! Levels of rollup rows over raw samples, each from the rows of the level below. The
counts, minima and maxima that every level stores are those of the samples. -/
namespace WattPost.Storage

open Keyed

section Cascade

variable {V : Type} [SqlReal V]

/-- The rows of a tower of levels, the topmost width first. -/
def cascade : List Nat → List (Key × V) → List (Key × RollupRow V)
  | [], xs => xs.map fun x => (x.1, .ofSample x.2)
  | w :: ws, xs => (groupBy (Key.bucket w) aggregateRows (cascade ws xs)).rows

/-- Each width divides the one above it. -/
def NestedWidths : List Nat → Prop
  | [] => True
  | w :: ws => (∀ u ∈ ws, u ∣ w) ∧ NestedWidths ws

omit [SqlReal V] in
theorem Key.bucket_bucket_of_dvd {u w : Nat} (h : u ∣ w) (k : Key) :
    (k.bucket u).bucket w = k.bucket w := by
  obtain ⟨m, rfl⟩ := h
  exact k.bucket_bucket u m

/-- To choose rows by their bucket one level up is to choose the samples. -/
theorem filter_cascade {ws : List Nat} {w : Nat} (hWidths : ∀ u ∈ ws, u ∣ w) (p : Key → Bool)
    (xs : List (Key × V)) :
    (cascade ws xs).filter (fun x => p (x.1.bucket w)) =
      cascade ws (xs.filter fun x => p (x.1.bucket w)) := by
  induction ws with
  | nil => exact List.filter_map
  | cons u ws ih =>
      obtain ⟨hHead, hTail⟩ := List.forall_mem_cons.mp hWidths
      rw [cascade, filter_groupBy (Key.bucket u) (fun k => p (k.bucket w)), cascade, ← ih hTail]
      simp only [Key.bucket_bucket_of_dvd hHead]

theorem group_cascade {ws : List Nat} {w : Nat} (hWidths : ∀ u ∈ ws, u ∣ w) (k : Key)
    (xs : List (Key × V)) :
    group (Key.bucket w) k (cascade ws xs) = cascade ws (group (Key.bucket w) k xs) := by
  unfold group
  convert filter_cascade hWidths (fun a => decide (a = k)) xs

theorem lookup_cascade {ws : List Nat} {w : Nat} (hWidths : ∀ u ∈ ws, u ∣ w) (k : Key)
    (xs : List (Key × V)) :
    (groupBy (Key.bucket w) aggregateRows (cascade ws xs)).lookup k =
      foldGroup aggregateRows (cascade ws (group (Key.bucket w) k xs)) := by
  rw [lookup_groupBy, group_cascade hWidths]

/-- A row is the aggregate of the rows below it. -/
theorem mem_cascade {ws : List Nat} {w : Nat} (hWidths : ∀ u ∈ ws, u ∣ w) {xs : List (Key × V)}
    {p : Key × RollupRow V} :
    p ∈ cascade (w :: ws) xs ↔
      foldGroup aggregateRows (cascade ws (group (Key.bucket w) p.1 xs)) = some p.2 := by
  rw [cascade, ← lookup_cascade hWidths]
  exact Table.lookup_eq_some_iff.symm

/-- Levels store a row for each bucket that has a sample. -/
theorem cascade_eq_nil {ws : List Nat} {xs : List (Key × V)} : cascade ws xs = [] ↔ xs = [] := by
  induction ws with
  | nil => exact List.map_eq_nil_iff
  | cons w ws ih =>
      rw [← ih, cascade]
      constructor
      · intro h
        rw [List.eq_nil_iff_forall_not_mem]
        intro x hx
        have hHas : (groupBy (Key.bucket w) aggregateRows (cascade ws xs)).Has (x.1.bucket w) :=
          has_groupBy.mpr ⟨x, hx, rfl⟩
        obtain ⟨r, hr⟩ := hHas
        rw [h] at hr
        cases hr
      · intro h
        rw [h]
        rfl

theorem foldGroup_cascade_nil (ws : List Nat) :
    foldGroup aggregateRows (cascade ws ([] : List (Key × V))) = none :=
  foldGroup_eq_none.mpr (cascade_eq_nil.mpr rfl)

theorem ne_nil_of_foldGroup_cascade {ws : List Nat} {xs : List (Key × V)} {r : RollupRow V}
    (hr : foldGroup aggregateRows (cascade ws xs) = some r) : xs ≠ [] := by
  rintro rfl
  rw [foldGroup_cascade_nil] at hr
  cases hr

/-- The samples of a bucket have a row. -/
theorem exists_cascade_row {ws : List Nat} {w : Nat} (hWidths : ∀ u ∈ ws, u ∣ w)
    {xs : List (Key × V)} {x : Key × V} (hx : x ∈ xs) :
    ∃ p ∈ cascade (w :: ws) xs, p.1 = x.1.bucket w := by
  cases hFold : foldGroup aggregateRows (cascade ws (group (Key.bucket w) (x.1.bucket w) xs)) with
  | none =>
      rw [foldGroup_eq_none, cascade_eq_nil] at hFold
      have hMem : x ∈ group (Key.bucket w) (x.1.bucket w) xs := mem_group.mpr ⟨hx, rfl⟩
      rw [hFold] at hMem
      cases hMem
  | some r => exact ⟨(x.1.bucket w, r), (mem_cascade hWidths).mpr hFold, rfl⟩

/-- The count, minimum and maximum of some values. -/
structure RollupRow.CountsOf (r : RollupRow V) (vs : List V) : Prop where
  n : r.n = vs.length
  min : vs.min? = some r.min
  max : vs.max? = some r.max

theorem sum_n_cascade (ws : List Nat) (xs : List (Key × V)) :
    ((cascade ws xs).map fun p => p.2.n).sum = xs.length := by
  induction ws with
  | nil => simp [cascade, RollupRow.ofSample, Function.comp_def]
  | cons w ws ih =>
      rw [cascade, ← ih]
      exact sum_groupBy (Key.bucket w) aggregateRows RollupRow.n RollupRow.n (fun _ _ => rfl) _

/-- Counts, minima and maxima of the samples survive every level. -/
theorem cascade_counts {ws : List Nat} (hNested : NestedWidths ws) {xs : List (Key × V)}
    {r : RollupRow V} (hr : foldGroup aggregateRows (cascade ws xs) = some r) :
    r.CountsOf (xs.map Prod.snd) := by
  induction ws generalizing xs r with
  | nil =>
      cases xs with
      | nil => cases hr
      | cons x xs =>
          have hRow := Option.some.inj hr
          rw [List.map_map] at hRow
          have hSamples := aggregateSamples_eq x.2 (xs.map Prod.snd)
          rw [List.map_map] at hSamples
          rw [← hRow]
          change (aggregateRows _ _).CountsOf _
          exact hSamples ▸ ⟨rfl, rfl, rfl⟩
  | cons w ws ih =>
      obtain ⟨hWidths, hRest⟩ := hNested
      have hBelow : ∀ p ∈ cascade (w :: ws) xs,
          p.2.CountsOf ((group (Key.bucket w) p.1 xs).map Prod.snd) :=
        fun p hp => ih hRest ((mem_cascade hWidths).mp hp)
      have hSum := sum_n_cascade (w :: ws) xs
      cases hRows : cascade (w :: ws) xs with
      | nil => rw [hRows] at hr; cases hr
      | cons p ps =>
          rw [hRows] at hr hSum
          obtain rfl := Option.some.inj hr
          have hMem : ∀ q, q ∈ p.2 :: ps.map Prod.snd ↔ ∃ a ∈ cascade (w :: ws) xs, a.2 = q := by
            intro q
            rw [hRows, ← List.map_cons, List.mem_map]
          constructor
          · rw [List.length_map, ← hSum]
            simp [aggregateRows, Function.comp_def]
          · obtain ⟨⟨q, hq, he⟩, hLe⟩ := aggregateRows_min p.2 (ps.map Prod.snd)
            obtain ⟨a, ha, rfl⟩ := (hMem q).mp hq
            rw [he] at hLe ⊢
            have hMin := List.min?_eq_some_iff.mp (hBelow a ha).min
            refine List.min?_eq_some_iff.mpr ⟨?_, ?_⟩
            · obtain ⟨x, hx, hxv⟩ := List.mem_map.mp hMin.1
              exact List.mem_map.mpr ⟨x, (mem_group.mp hx).1, hxv⟩
            · intro v hv
              obtain ⟨x, hx, rfl⟩ := List.mem_map.mp hv
              obtain ⟨b, hb, hbx⟩ := exists_cascade_row hWidths hx
              have hMinB := List.min?_eq_some_iff.mp (hBelow b hb).min
              exact (hLe b.2 ((hMem _).mpr ⟨b, hb, rfl⟩)).trans
                (hMinB.2 _ (List.mem_map_of_mem (mem_group.mpr ⟨hx, hbx.symm⟩)))
          · obtain ⟨⟨q, hq, he⟩, hLe⟩ := aggregateRows_max p.2 (ps.map Prod.snd)
            obtain ⟨a, ha, rfl⟩ := (hMem q).mp hq
            rw [he] at hLe ⊢
            have hMax := List.max?_eq_some_iff.mp (hBelow a ha).max
            refine List.max?_eq_some_iff.mpr ⟨?_, ?_⟩
            · obtain ⟨x, hx, hxv⟩ := List.mem_map.mp hMax.1
              exact List.mem_map.mpr ⟨x, (mem_group.mp hx).1, hxv⟩
            · intro v hv
              obtain ⟨x, hx, rfl⟩ := List.mem_map.mp hv
              obtain ⟨b, hb, hbx⟩ := exists_cascade_row hWidths hx
              have hMaxB := List.max?_eq_some_iff.mp (hBelow b hb).max
              exact (hMaxB.2 _ (List.mem_map_of_mem (mem_group.mpr ⟨hx, hbx.symm⟩))).trans
                (hLe b.2 ((hMem _).mpr ⟨b, hb, rfl⟩))

/-- The lowest level, which aggregates the samples themselves. -/
theorem groupBy_aggregateSamples (w : Nat) (xs : List (Key × V)) :
    (groupBy (Key.bucket w) aggregateSamples xs).rows = cascade [w] xs := by
  rw [cascade, cascade, groupBy_map]
  congr 2
  funext v vs
  exact aggregateSamples_eq v vs

end Cascade

end WattPost.Storage
