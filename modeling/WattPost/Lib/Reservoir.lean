import Mathlib.Algebra.Order.Floor.Ring
import Mathlib.Algebra.Order.Floor.Semiring
import Mathlib.Data.Rat.Floor
import Mathlib.Tactic.Linarith
import Mathlib.Tactic.FieldSimp
import Mathlib.Tactic.Ring

/-! A store that fills and drains at rates which are constant between whole
instants, with a limit above or without: its level at every instant, when it is
first empty, and what the limit changes about that. -/
namespace Reservoir

/-- A stretch of time: the instant it ends at, and the rate during it. -/
abbrev Stretch := ℕ × ℚ

/-- The ends come one after the other. -/
def Follow : ℕ → List Stretch → Prop
  | _, [] => True
  | start, s :: rest => start < s.1 ∧ Follow s.1 rest

/-- The last end. -/
def horizon : ℕ → List Stretch → ℕ
  | start, [] => start
  | _, s :: rest => horizon s.1 rest

/-- The level at an instant. What a stretch would bring above the limit is lost. -/
def level (cap : ℚ) : ℕ → ℚ → List Stretch → ℚ → ℚ
  | _, amount, [], _ => min cap amount
  | start, amount, s :: rest, t =>
      if t ≤ s.1 then min cap (amount + s.2 * (t - start))
      else level cap s.1 (min cap (amount + s.2 * (s.1 - start))) rest t

/-- The first instant at which a store that was not empty is, when at the end of a
stretch its level is put through `limit`. -/
def firstEmpty (limit : ℚ → ℚ) : ℕ → ℚ → List Stretch → Option ℚ
  | _, _, [] => none
  | start, amount, s :: rest =>
      let next := amount + s.2 * (s.1 - start)
      if next ≤ 0 then some (start + amount / -s.2) else firstEmpty limit s.1 (limit next) rest

theorem le_horizon {start : ℕ} {stretches : List Stretch} (hFollow : Follow start stretches) :
    start ≤ horizon start stretches := by
  induction stretches generalizing start with
  | nil => exact le_rfl
  | cons s rest ih => exact hFollow.1.le.trans (ih hFollow.2)

/-- Inside a stretch that ends above zero the level stays above it. -/
theorem line_pos {start stop : ℕ} {amount rate t : ℚ} (hAmount : 0 < amount)
    (hEnd : 0 < amount + rate * (stop - start)) (hStart : (start : ℚ) ≤ t) (hStop : t ≤ stop) :
    0 < amount + rate * (t - start) := by
  rcases le_total 0 rate with hRate | hRate
  · have hGain : 0 ≤ rate * (t - start) := mul_nonneg hRate (by linarith)
    linarith
  · have hLoss : rate * (stop - start) ≤ rate * (t - start) :=
      mul_le_mul_of_nonpos_left (by linarith) hRate
    linarith

/-- A stretch that ends at zero or below drains, and the level reaches zero at the
instant the rate gives. -/
theorem line_zero {start stop : ℕ} {amount rate : ℚ} (hAmount : 0 < amount)
    (hFollow : start < stop) (hEnd : amount + rate * (stop - start) ≤ 0) :
    rate < 0 ∧ (start : ℚ) < start + amount / -rate ∧ start + amount / -rate ≤ stop ∧
      ∀ t : ℚ, amount + rate * (t - start) ≤ 0 ↔ start + amount / -rate ≤ t := by
  have hLength : (0 : ℚ) < stop - start := by
    have hCast : (start : ℚ) < stop := by exact_mod_cast hFollow
    linarith
  have hRate : rate < 0 := by
    by_contra hRate
    have hGain : 0 ≤ rate * (stop - start) := mul_nonneg (not_lt.mp hRate) hLength.le
    linarith
  have hReach : ∀ t : ℚ, amount + rate * (t - start) ≤ 0 ↔ start + amount / -rate ≤ t := by
    intro t
    have hDiv : amount / -rate ≤ t - start ↔ amount ≤ (t - start) * -rate :=
      div_le_iff₀ (by linarith)
    constructor
    · intro h
      have hTime := hDiv.mpr (by linarith)
      linarith
    · intro h
      have hTime := hDiv.mp (by linarith)
      linarith
  have hPos : 0 < amount / -rate := div_pos hAmount (by linarith)
  exact ⟨hRate, by linarith, (hReach stop).mp hEnd, hReach⟩

theorem level_start (cap : ℚ) {start : ℕ} {amount : ℚ} {stretches : List Stretch}
    (hFollow : Follow start stretches) :
    level cap start amount stretches start = min cap amount := by
  cases stretches with
  | nil => rfl
  | cons s rest =>
      have hCast : (start : ℚ) ≤ s.1 := by exact_mod_cast hFollow.1.le
      rw [level, if_pos hCast, sub_self, mul_zero, add_zero]

/-- From the end of a stretch on the level is that of the rest. -/
theorem level_later (cap : ℚ) {start : ℕ} {amount t : ℚ} {s : Stretch} {rest : List Stretch}
    (hRest : Follow s.1 rest) (hLater : s.1 ≤ t) :
    level cap start amount (s :: rest) t =
      level cap s.1 (min cap (amount + s.2 * (s.1 - start))) rest t := by
  rcases hLater.eq_or_lt with hAt | hAfter
  · rw [level, if_pos hAt.ge, ← hAt, level_start cap hRest, min_eq_right (min_le_left _ _)]
  · rw [level, if_neg (not_le.mpr hAfter)]

/-- The instant is the first one up to the horizon at which the store is empty;
without an instant it is never empty. -/
def Empties (cap : ℚ) (start : ℕ) (amount : ℚ) (stretches : List Stretch) : Option ℚ → Prop
  | some t => IsLeast {t : ℚ | start ≤ t ∧ t ≤ horizon start stretches ∧
      level cap start amount stretches t ≤ 0} t
  | none => ∀ t : ℚ, start ≤ t → t ≤ horizon start stretches →
      0 < level cap start amount stretches t

theorem Empties.unique {cap : ℚ} {start : ℕ} {amount : ℚ} {stretches : List Stretch}
    {o o' : Option ℚ} (h : Empties cap start amount stretches o)
    (h' : Empties cap start amount stretches o') : o = o' := by
  cases o with
  | none =>
      cases o' with
      | none => rfl
      | some t =>
          obtain ⟨⟨hStart, hStop, hEmpty⟩, _⟩ := h'
          exact absurd hEmpty (not_le.mpr (h t hStart hStop))
  | some t =>
      cases o' with
      | none =>
          obtain ⟨⟨hStart, hStop, hEmpty⟩, _⟩ := h
          exact absurd hEmpty (not_le.mpr (h' t hStart hStop))
      | some t' => rw [IsLeast.unique h h']

/-- A store that starts empty is empty at once. -/
theorem empties_start {cap : ℚ} {start : ℕ} {amount : ℚ} {stretches : List Stretch}
    (hAmount : amount ≤ 0) (hFollow : Follow start stretches) :
    Empties cap start amount stretches (some start) := by
  refine ⟨⟨le_rfl, by exact_mod_cast le_horizon hFollow, ?_⟩, fun t ht => ht.1⟩
  rw [level_start cap hFollow]
  exact (min_le_right _ _).trans hAmount

/-- What the rest does is what the whole does, when the stretch before it ends
above zero. -/
theorem Empties.cons {cap : ℚ} (hCap : 0 < cap) {start : ℕ} {amount : ℚ} {s : Stretch}
    {rest : List Stretch} {o : Option ℚ} (hAmount : 0 < amount) (hFollow : Follow start (s :: rest))
    (hEnd : 0 < amount + s.2 * (s.1 - start))
    (h : Empties cap s.1 (min cap (amount + s.2 * (s.1 - start))) rest o) :
    Empties cap start amount (s :: rest) o := by
  obtain ⟨hBefore, hRest⟩ := hFollow
  have hInside : ∀ t : ℚ, start ≤ t → t ≤ s.1 → 0 < level cap start amount (s :: rest) t := by
    intro t hStart hStop
    rw [level, if_pos hStop]
    exact lt_min hCap (line_pos hAmount hEnd hStart hStop)
  have hCast : (start : ℚ) ≤ s.1 := by exact_mod_cast hBefore.le
  cases o with
  | none =>
      intro t hStart hStop
      rcases le_total t s.1 with hIn | hAfter
      · exact hInside t hStart hIn
      · rw [level_later cap hRest hAfter]
        exact h t hAfter hStop
  | some t =>
      obtain ⟨⟨hStart, hStop, hEmpty⟩, hLeast⟩ := h
      refine ⟨⟨hCast.trans hStart, hStop, ?_⟩, ?_⟩
      · rw [level_later cap hRest hStart]
        exact hEmpty
      · rintro t' ⟨hStart', hStop', hEmpty'⟩
        rcases le_total t' s.1 with hIn | hAfter
        · exact absurd hEmpty' (not_le.mpr (hInside t' hStart' hIn))
        · rw [level_later cap hRest hAfter] at hEmpty'
          exact hLeast ⟨hAfter, hStop', hEmpty'⟩

/-- The walk finds the first instant at which a limited store is empty. -/
theorem firstEmpty_empties {cap : ℚ} (hCap : 0 < cap) {start : ℕ} {amount : ℚ}
    {stretches : List Stretch} (hAmount : 0 < amount) (hFollow : Follow start stretches) :
    Empties cap start amount stretches (firstEmpty (min cap) start amount stretches) := by
  induction stretches generalizing start amount with
  | nil =>
      intro t _ _
      exact lt_min hCap hAmount
  | cons s rest ih =>
      rw [firstEmpty]
      by_cases hEnd : amount + s.2 * (s.1 - start) ≤ 0
      · obtain ⟨_, hAfter, hStop, hReach⟩ := line_zero hAmount hFollow.1 hEnd
        have hFar : (s.1 : ℚ) ≤ horizon s.1 rest := by exact_mod_cast le_horizon hFollow.2
        simp only [if_pos hEnd]
        refine ⟨⟨hAfter.le, hStop.trans hFar, ?_⟩, ?_⟩
        · rw [level, if_pos hStop]
          exact (min_le_right _ _).trans ((hReach _).mpr le_rfl)
        · rintro t ⟨_, _, hEmpty⟩
          rw [level] at hEmpty
          by_cases hInside : t ≤ s.1
          · rw [if_pos hInside, min_le_iff] at hEmpty
            exact (hReach t).mp (hEmpty.resolve_left (not_le.mpr hCap))
          · exact hStop.trans (not_le.mp hInside).le
      · simp only [if_neg hEnd]
        have hNext := lt_min hCap (not_le.mp hEnd)
        exact (ih hNext hFollow.2).cons hCap hAmount hFollow (not_le.mp hEnd)

/-! ### What the limit changes -/

/-- How a limited store empties: the instant, what the limit had cost it by then,
and how fast it goes on draining. -/
structure Emptying where
  instant : ℚ
  lost : ℚ
  drain : ℚ
deriving DecidableEq

/-- The rate at which a store drains from an instant on that ends a stretch. -/
def nextDrain : List Stretch → ℚ
  | [] => 0
  | s :: _ => -s.2

/-- The walk of `firstEmpty`, with the count of what is lost. -/
def emptying (cap : ℚ) : ℕ → ℚ → ℚ → List Stretch → Option Emptying
  | _, _, _, [] => none
  | start, amount, lost, s :: rest =>
      let next := amount + s.2 * (s.1 - start)
      if next ≤ 0 then
        some ⟨start + amount / -s.2, lost, if next < 0 then -s.2 else nextDrain rest⟩
      else emptying cap s.1 (min cap next) (lost + (next - min cap next)) rest

theorem emptying_instant (cap : ℚ) (start : ℕ) (amount lost : ℚ) (stretches : List Stretch) :
    (emptying cap start amount lost stretches).map Emptying.instant =
      firstEmpty (min cap) start amount stretches := by
  induction stretches generalizing start amount lost with
  | nil => rfl
  | cons s rest ih =>
      rw [emptying, firstEmpty]
      by_cases hEnd : amount + s.2 * (s.1 - start) ≤ 0
      · simp only [if_pos hEnd, Option.map_some]
      · simp only [if_neg hEnd]
        exact ih _ _ _

/-- Nothing was lost, or less than drains before the second of the emptying is over. -/
def Emptying.InTheSecond (e : Emptying) : Prop :=
  e.lost = 0 ∨ e.lost < e.drain * (⌊e.instant⌋₊ + 1 - e.instant)

theorem lt_firstEmpty_id {start : ℕ} {amount : ℚ} {stretches : List Stretch} (hAmount : 0 < amount)
    (hFollow : Follow start stretches) {t : ℚ} (h : firstEmpty id start amount stretches = some t) :
    (start : ℚ) < t := by
  induction stretches generalizing start amount with
  | nil => cases h
  | cons s rest ih =>
      rw [firstEmpty] at h
      by_cases hEnd : amount + s.2 * (s.1 - start) ≤ 0
      · simp only [if_pos hEnd, Option.some.injEq] at h
        rw [← h]
        exact (line_zero hAmount hFollow.1 hEnd).2.1
      · simp only [if_neg hEnd] at h
        have hCast : (start : ℚ) < s.1 := by exact_mod_cast hFollow.1
        exact hCast.trans (ih (not_le.mp hEnd) hFollow.2 h)

/-- A store with some amount left at an instant is empty in the same second exactly
when the amount drains before the second is over. -/
theorem firstEmpty_id_floor_cons {start : ℕ} {amount t x : ℚ} {s : Stretch} {rest : List Stretch}
    (hAmount : 0 < amount) (hFollow : Follow start (s :: rest)) (hStart : start ≤ t)
    (hStop : t < s.1) (hx : 0 < x) (hAt : amount + s.2 * (t - start) = x) :
    (firstEmpty id start amount (s :: rest)).map Nat.floor = some ⌊t⌋₊ ↔
      x < -s.2 * (⌊t⌋₊ + 1 - t) := by
  have hNonneg : 0 ≤ t := (Nat.cast_nonneg start).trans hStart
  have hFloor : ⌊t⌋₊ + 1 ≤ s.1 := (Nat.floor_lt hNonneg).mpr hStop
  have hFloorCast : (⌊t⌋₊ : ℚ) + 1 ≤ s.1 := by exact_mod_cast hFloor
  have hRest : t < ⌊t⌋₊ + 1 := Nat.lt_floor_add_one t
  rw [firstEmpty]
  by_cases hEnd : amount + s.2 * (s.1 - start) ≤ 0
  · obtain ⟨hRate, _, _, _⟩ := line_zero hAmount hFollow.1 hEnd
    have hDrain : 0 < -s.2 := by linarith
    have hNe := hRate.ne
    have hMoved : start + amount / -s.2 = t + x / -s.2 := by
      rw [← hAt]
      field_simp
      ring
    have hGain : 0 < x / -s.2 := div_pos hx hDrain
    simp only [if_pos hEnd, Option.map_some, Option.some.injEq]
    rw [hMoved, Nat.floor_eq_iff (by linarith), mul_comm, ← div_lt_iff₀ hDrain]
    constructor
    · intro h
      linarith
    · intro h
      exact ⟨(Nat.floor_le hNonneg).trans (by linarith), by linarith⟩
  · -- the stretch ends above zero, and the second before it does
    simp only [if_neg hEnd]
    have hLeft : -s.2 * (⌊t⌋₊ + 1 - t) ≤ x := by
      rcases le_total 0 s.2 with hRate | hRate
      · have hNeg : -s.2 * (⌊t⌋₊ + 1 - t) ≤ 0 :=
          mul_nonpos_of_nonpos_of_nonneg (by linarith) (by linarith)
        linarith
      · have hMore : -s.2 * (⌊t⌋₊ + 1 - t) ≤ -s.2 * (s.1 - t) :=
          mul_le_mul_of_nonneg_left (by linarith) (by linarith)
        linarith
    constructor
    · intro h
      obtain ⟨u, hu, hSame⟩ := Option.map_eq_some_iff.mp h
      have hAfter : (s.1 : ℚ) < u := lt_firstEmpty_id (not_le.mp hEnd) hFollow.2 hu
      have hFar : s.1 ≤ ⌊u⌋₊ := Nat.le_floor hAfter.le
      omega
    · intro h
      exact absurd h (not_lt.mpr hLeft)

/-- The case in which the limited store empties in the first stretch. -/
theorem firstEmpty_id_floor_end {cap : ℚ} {start : ℕ} {amount lost : ℚ} {s : Stretch}
    {rest : List Stretch} (hAmount : 0 < amount) (hLost : 0 ≤ lost)
    (hFollow : Follow start (s :: rest)) (hEnd : amount + s.2 * (s.1 - start) ≤ 0) :
    (firstEmpty id start (amount + lost) (s :: rest)).map Nat.floor =
        (firstEmpty (min cap) start amount (s :: rest)).map Nat.floor ↔
      ∀ e, emptying cap start amount lost (s :: rest) = some e → e.InTheSecond := by
  obtain ⟨hRate, hAfter, hStop, hReach⟩ := line_zero hAmount hFollow.1 hEnd
  have hCapped : firstEmpty (min cap) start amount (s :: rest) =
      some (start + amount / -s.2) := by
    rw [firstEmpty]
    simp only [if_pos hEnd]
  have hEmptying : emptying cap start amount lost (s :: rest) =
      some ⟨start + amount / -s.2, lost,
        if amount + s.2 * (s.1 - start) < 0 then -s.2 else nextDrain rest⟩ := by
    rw [emptying]
    simp only [if_pos hEnd]
  have hNe := hRate.ne
  have hZero : amount + s.2 * (start + amount / -s.2 - start) = 0 := by
    field_simp
    ring
  generalize hInstant : (start : ℚ) + amount / -s.2 = t at *
  simp only [hCapped, hEmptying, Option.map_some, Option.some.injEq, forall_eq']
  rw [Emptying.InTheSecond]
  rcases hLost.eq_or_lt with hNone | hSome
  · -- nothing was lost: both walks are the same
    have hSame : firstEmpty id start (amount + lost) (s :: rest) = some t := by
      rw [firstEmpty, ← hNone, add_zero]
      simp only [if_pos hEnd, hInstant]
    rw [hSame]
    simp [← hNone]
  · rw [or_iff_right hSome.ne']
    rcases hEnd.lt_or_eq with hBelow | hExact
    · have hInside : t < s.1 := by
        refine lt_of_le_of_ne hStop fun hAt => ?_
        rw [hAt] at hZero
        exact hBelow.ne hZero
      simp only [if_pos hBelow]
      exact firstEmpty_id_floor_cons (by linarith) hFollow hAfter.le hInside hSome
        (by linarith)
    · -- it empties just at the end of the stretch, and what was lost lasts longer
      have hAt : t = s.1 := by
        have hProduct : s.2 * (t - s.1) = 0 := by linarith
        exact sub_eq_zero.mp ((mul_eq_zero.mp hProduct).resolve_left hNe)
      subst hAt
      have hOn : firstEmpty id start (amount + lost) (s :: rest) =
          firstEmpty id s.1 lost rest := by
        rw [firstEmpty]
        have hLeft : amount + lost + s.2 * (s.1 - start) = lost := by linarith
        simp only [hLeft, if_neg (not_le.mpr hSome), id]
      rw [hOn]
      simp only [hExact, lt_irrefl, if_false]
      cases rest with
      | nil => simp [firstEmpty, nextDrain, hSome.le]
      | cons s' rest' =>
          have hNext : (s.1 : ℚ) < s'.1 := by exact_mod_cast hFollow.2.1
          exact firstEmpty_id_floor_cons hSome hFollow.2 le_rfl hNext hSome (by ring)

/-- An unlimited store that still holds what a limited one has lost empties in the
same second exactly when that drains in time. -/
theorem firstEmpty_id_floor_iff {cap : ℚ} (hCap : 0 < cap) {start : ℕ} {amount lost : ℚ}
    {stretches : List Stretch} (hAmount : 0 < amount) (hLost : 0 ≤ lost)
    (hFollow : Follow start stretches) :
    (firstEmpty id start (amount + lost) stretches).map Nat.floor =
        (firstEmpty (min cap) start amount stretches).map Nat.floor ↔
      ∀ e, emptying cap start amount lost stretches = some e → e.InTheSecond := by
  induction stretches generalizing start amount lost with
  | nil => simp [firstEmpty, emptying]
  | cons s rest ih =>
      by_cases hEnd : amount + s.2 * (s.1 - start) ≤ 0
      · exact firstEmpty_id_floor_end hAmount hLost hFollow hEnd
      · have hNext := not_le.mp hEnd
        have hSplit : amount + lost + s.2 * (s.1 - start) =
            min cap (amount + s.2 * (s.1 - start)) +
              (lost + (amount + s.2 * (s.1 - start) -
                min cap (amount + s.2 * (s.1 - start)))) := by ring
        have hMore : 0 ≤ lost + (amount + s.2 * (s.1 - start) -
            min cap (amount + s.2 * (s.1 - start))) := by
          have hMin := min_le_right cap (amount + s.2 * (s.1 - start))
          linarith
        have hKept : 0 < min cap (amount + s.2 * (s.1 - start)) := lt_min hCap hNext
        rw [firstEmpty, firstEmpty, emptying, hSplit]
        simp only [if_neg hEnd, if_neg (not_le.mpr (add_pos_of_pos_of_nonneg hKept hMore)), id]
        exact ih hKept hMore hFollow.2

end Reservoir
