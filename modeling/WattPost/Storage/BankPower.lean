import WattPost.Storage.Analytics

/-! The power of a bank of packs that report together: what each query makes of it.
The sum by time is the bank's power; the rolling average is over the joined rows,
of which every time has one for each pack. -/
namespace WattPost.Storage

open Keyed

/-! ### The joined rows -/

theorem mem_packRows {samples : Table Key ℚ} {window : ℕ → Bool} {ts : ℕ} {device : String}
    {w : ℚ} :
    (toLex (ts, device), w) ∈ packRows samples window ↔
      likeBattery device = true ∧ window ts = true ∧ packPower samples ts device = some w := by
  simp only [packRows, packPower, List.mem_filterMap, Option.ite_none_right_eq_some,
    Bool.and_eq_true, decide_eq_true_eq, Option.map_eq_some_iff, Prod.mk.injEq,
    Option.bind_eq_bind, Option.bind_eq_some_iff, Option.pure_def, Option.some.injEq]
  constructor
  · rintro ⟨⟨⟨ts', device', metric⟩, v⟩, hRow, ⟨⟨rfl, hLike⟩, hWindow⟩, i, hi, hKey, rfl⟩
    obtain ⟨rfl, rfl⟩ := Prod.mk.inj (toLex.injective hKey)
    exact ⟨hLike, hWindow, v, Table.lookup_eq_some_iff.mpr hRow, i, hi, rfl⟩
  · rintro ⟨hLike, hWindow, v, hv, i, hi, rfl⟩
    exact ⟨_, Table.lookup_eq_some_iff.mp hv, ⟨⟨rfl, hLike⟩, hWindow⟩, i, hi, rfl, rfl⟩

theorem isSome_packPower {samples : Table Key ℚ} {ts : ℕ} {device : String} :
    (packPower samples ts device).isSome = true ↔
      samples.Has ⟨ts, device, "voltage_v"⟩ ∧ samples.Has ⟨ts, device, "current_a"⟩ := by
  rw [Table.has_iff_lookup, Table.has_iff_lookup, packPower]
  cases samples.lookup ⟨ts, device, "voltage_v"⟩ <;>
    cases samples.lookup ⟨ts, device, "current_a"⟩ <;> simp

theorem packRows_sorted (samples : Table Key ℚ) (window : ℕ → Bool) :
    (packRows samples window).Pairwise KeyLt := by
  refine List.pairwise_filterMap.mpr (samples.sorted.imp ?_)
  intro a b hLt x hx y hy
  simp only [Option.ite_none_right_eq_some, Bool.and_eq_true, decide_eq_true_eq,
    Option.map_eq_some_iff] at hx hy
  obtain ⟨⟨⟨hMetric, _⟩, _⟩, i, _, rfl⟩ := hx
  obtain ⟨⟨⟨hMetric', _⟩, _⟩, j, _, rfl⟩ := hy
  -- of two voltage rows the one with the smaller key has the smaller time and device
  rcases Prod.Lex.toLex_lt_toLex.mp (show a.1.lex < b.1.lex from hLt) with hTs | ⟨hTs, hRest⟩
  · exact Prod.Lex.toLex_lt_toLex.mpr (Or.inl hTs)
  · rcases Prod.Lex.toLex_lt_toLex.mp hRest with hDevice | ⟨_, hLater⟩
    · exact Prod.Lex.toLex_lt_toLex.mpr (Or.inr ⟨hTs, hDevice⟩)
    · exact absurd hLater (by simp [hMetric, hMetric'])

theorem packRows_nodup (samples : Table Key ℚ) (window : ℕ → Bool) :
    (packRows samples window).Nodup :=
  (packRows_sorted samples window).imp fun hLt hEq => by
    subst hEq
    exact lt_irrefl _ hLt

/-! ### Packs that report together -/

/-- The packs `battery_<i>` of a bank: the devices that the queries take for packs,
each reporting voltage and current whenever another does. -/
structure CommonPacks (samples : Table Key ℚ) (packs : List String) : Prop where
  some_pack : packs ≠ []
  nodup : packs.Nodup
  named : ∀ pack ∈ packs, ∃ i : ℕ, pack = "battery_" ++ toString i
  only : ∀ ts device, likeBattery device = true → (packPower samples ts device).isSome = true →
    device ∈ packs
  together : ∀ ts, ∀ pack ∈ packs, ∀ other ∈ packs,
    (packPower samples ts pack).isSome = true → (packPower samples ts other).isSome = true

/-- The times of a window at which the packs report. -/
structure CommonTimes (samples : Table Key ℚ) (packs : List String) (window : ℕ → Bool)
    (times : List ℕ) : Prop where
  nodup : times.Nodup
  mem : ∀ ts, ts ∈ times ↔
    window ts = true ∧ ∃ pack ∈ packs, (packPower samples ts pack).isSome = true

/-- The bank's total power: over its packs, voltage times current. -/
def bankPower (samples : Table Key ℚ) (packs : List String) (ts : ℕ) : ℚ :=
  (packs.map fun pack => (packPower samples ts pack).getD 0).sum

theorem likeBattery_numbered (i : ℕ) : likeBattery ("battery_" ++ toString i) = true := by
  simp [likeBattery, String.toList_append]

section Bank

variable {samples : Table Key ℚ} {packs : List String} {window : ℕ → Bool} {times : List ℕ}
  (hPacks : CommonPacks samples packs) (hTimes : CommonTimes samples packs window times)

include hPacks

theorem CommonPacks.like {pack : String} (hPack : pack ∈ packs) : likeBattery pack = true := by
  obtain ⟨i, rfl⟩ := hPacks.named pack hPack
  exact likeBattery_numbered i

include hTimes

theorem CommonTimes.reports {ts : ℕ} (hTs : ts ∈ times) {pack : String} (hPack : pack ∈ packs) :
    window ts = true ∧ ∃ w, packPower samples ts pack = some w := by
  obtain ⟨hWindow, other, hOther, hSome⟩ := (hTimes.mem ts).mp hTs
  exact ⟨hWindow, Option.isSome_iff_exists.mp (hPacks.together ts other hOther pack hPack hSome)⟩

theorem mem_packRows_iff {ts : ℕ} {pack : String} {w : ℚ} :
    (toLex (ts, pack), w) ∈ packRows samples window ↔
      ts ∈ times ∧ pack ∈ packs ∧ w = (packPower samples ts pack).getD 0 := by
  rw [mem_packRows]
  constructor
  · rintro ⟨hLike, hWindow, hPower⟩
    have hSome : (packPower samples ts pack).isSome = true := by rw [hPower]; rfl
    have hPack := hPacks.only ts pack hLike hSome
    exact ⟨(hTimes.mem ts).mpr ⟨hWindow, pack, hPack, hSome⟩, hPack, by rw [hPower]; rfl⟩
  · rintro ⟨hTs, hPack, rfl⟩
    obtain ⟨hWindow, w, hPower⟩ := CommonTimes.reports hPacks hTimes hTs hPack
    exact ⟨hPacks.like hPack, hWindow, by rw [hPower]; rfl⟩

/-- The joined rows are one for each time and pack. -/
theorem packRows_perm :
    (packRows samples window).Perm
      (times.flatMap fun ts => packs.map fun pack =>
        (toLex (ts, pack), (packPower samples ts pack).getD 0)) := by
  have hNodup : (times.flatMap fun ts => packs.map fun pack =>
      ((toLex (ts, pack), (packPower samples ts pack).getD 0) : (ℕ ×ₗ String) × ℚ)).Nodup := by
    refine List.nodup_flatMap.mpr ⟨fun ts _ => ?_, ?_⟩
    · apply hPacks.nodup.map
      intro p q hEq
      exact (Prod.mk.inj (toLex.injective (Prod.mk.inj hEq).1)).2
    · refine hTimes.nodup.imp ?_
      intro ts ts' hNe x hx hx'
      obtain ⟨p, _, rfl⟩ := List.mem_map.mp hx
      obtain ⟨q, _, hEq⟩ := List.mem_map.mp hx'
      exact hNe (Prod.mk.inj (toLex.injective (Prod.mk.inj hEq).1)).1.symm
  apply (List.perm_ext_iff_of_nodup (packRows_nodup samples window) hNodup).mpr
  rintro ⟨⟨ts, pack⟩, w⟩
  refine (mem_packRows_iff hPacks hTimes).trans ?_
  simp only [List.mem_flatMap, List.mem_map]
  constructor
  · rintro ⟨hTs, hPack, rfl⟩
    exact ⟨ts, hTs, pack, hPack, rfl⟩
  · rintro ⟨ts', hTs, pack', hPack, hEq⟩
    obtain ⟨hKey, rfl⟩ := Prod.mk.inj hEq
    obtain ⟨rfl, rfl⟩ := Prod.mk.inj (toLex.injective hKey)
    exact ⟨hTs, hPack, rfl⟩

theorem packRows_sum :
    ((packRows samples window).map Prod.snd).sum =
      (times.map (bankPower samples packs)).sum := by
  rw [((packRows_perm hPacks hTimes).map Prod.snd).sum_eq, List.map_flatMap, List.flatMap_def,
    List.sum_flatten, List.map_map]
  congr 1
  refine List.map_congr_left fun ts _ => ?_
  rw [Function.comp_apply, List.map_map]
  rfl

theorem packRows_length : (packRows samples window).length = times.length * packs.length := by
  rw [(packRows_perm hPacks hTimes).length_eq, List.length_flatMap]
  simp

/-- The queries that sum by time have the bank's power at each time. -/
theorem lookup_bankRows {ts : ℕ} (hTs : ts ∈ times) :
    (bankRows samples window).lookup ts = some (bankPower samples packs ts) := by
  let rows := group (fun k : ℕ ×ₗ String => (ofLex k).1) ts (packRows samples window)
  have hRows : rows.Perm
      (packs.map fun pack => (toLex (ts, pack), (packPower samples ts pack).getD 0)) := by
    apply (List.perm_ext_iff_of_nodup ((packRows_nodup samples window).filter _) _).mpr
    · rintro ⟨⟨ts', pack⟩, w⟩
      refine mem_group.trans ?_
      rw [List.mem_map]
      constructor
      · rintro ⟨hRow, rfl⟩
        obtain ⟨_, hPack, rfl⟩ := (mem_packRows_iff hPacks hTimes).mp hRow
        exact ⟨pack, hPack, rfl⟩
      · rintro ⟨pack', hPack, hEq⟩
        obtain ⟨hKey, rfl⟩ := Prod.mk.inj hEq
        obtain ⟨rfl, rfl⟩ := Prod.mk.inj (toLex.injective hKey)
        exact ⟨(mem_packRows_iff hPacks hTimes).mpr ⟨hTs, hPack, rfl⟩, rfl⟩
    · apply hPacks.nodup.map
      intro p q hEq
      exact (Prod.mk.inj (toLex.injective (Prod.mk.inj hEq).1)).2
  have hSum : (rows.map Prod.snd).sum = bankPower samples packs ts := by
    rw [(hRows.map Prod.snd).sum_eq, List.map_map]
    rfl
  rw [bankRows, lookup_groupBy]
  change foldGroup _ rows = _
  cases hCase : rows with
  | nil =>
      rw [hCase] at hRows
      exact absurd (List.map_eq_nil_iff.mp hRows.nil_eq.symm) hPacks.some_pack
  | cons row rest =>
      rw [hCase] at hSum
      rw [← hSum]
      rfl

/-- The rolling average is over times and packs together. -/
theorem rollingLoadAvg_eq (now windowSeconds : Int)
    (hWindow : ∀ ts, window ts = decide (now - windowSeconds ≤ ts)) :
    rollingLoadAvg samples now windowSeconds =
      if times = [] then none
      else some ((times.map (bankPower samples packs)).sum / (times.length * packs.length)) := by
  have hSame : (fun ts : ℕ => decide (now - windowSeconds ≤ ts)) = window := by
    funext ts
    exact (hWindow ts).symm
  have hSum := packRows_sum hPacks hTimes
  have hLength := packRows_length hPacks hTimes
  have hPack : 0 < packs.length := List.length_pos_iff.mpr hPacks.some_pack
  rw [rollingLoadAvg, hSame]
  cases hRows : packRows samples window with
  | nil =>
      rw [hRows, List.length_nil, eq_comm, Nat.mul_eq_zero] at hLength
      rw [if_pos (List.length_eq_zero_iff.mp (hLength.resolve_right hPack.ne'))]
      rfl
  | cons row rest =>
      have hTimes : times ≠ [] := by
        rintro rfl
        rw [hRows] at hLength
        simp at hLength
      rw [hRows] at hSum hLength
      rw [if_neg hTimes, ← hSum, ← Nat.cast_mul, ← hLength]
      simp [SqlReal.avg]

end Bank

end WattPost.Storage
