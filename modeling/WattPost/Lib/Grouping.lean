import WattPost.Lib.PyDict

/-! Values collected in a dictionary of lists: each list has the values of its key in the
order in which they came. -/
namespace Grouping

open PyDict

variable {β : Type}

/-- `d.setdefault(k, []).append(v)`. -/
def collect (d : Dict (List β)) (x : String × β) : Dict (List β) :=
  d.set x.1 ((d.get x.1).getD [] ++ [x.2])

def collectAll (xs : List (String × β)) : Dict (List β) := xs.foldl collect Dict.empty

/-- The values of a key. -/
def valuesOf (xs : List (String × β)) (k : String) : List β :=
  (xs.filter fun x => x.1 = k).map Prod.snd

theorem collectAll_concat (xs : List (String × β)) (x : String × β) :
    collectAll (xs ++ [x]) = collect (collectAll xs) x := by
  rw [collectAll, List.foldl_append]
  rfl

theorem getD_collectAll (xs : List (String × β)) (k : String) :
    ((collectAll xs).get k).getD [] = valuesOf xs k := by
  induction xs using List.reverseRecOn with
  | nil => rfl
  | append_singleton xs x ih =>
      rw [collectAll_concat, collect, Dict.get_set, valuesOf, List.filter_append, List.map_append]
      by_cases hKey : k = x.1
      · subst hKey
        rw [if_pos rfl, Option.getD_some, ih, List.filter_cons_of_pos (by simp)]
        rfl
      · rw [if_neg hKey, ih, List.filter_cons_of_neg (by simpa using Ne.symm hKey),
          List.filter_nil, List.map_nil, List.append_nil]
        rfl

theorem mem_keys_collectAll {xs : List (String × β)} {k : String} :
    k ∈ (collectAll xs).keys ↔ k ∈ xs.map Prod.fst := by
  induction xs using List.reverseRecOn with
  | nil => rfl
  | append_singleton xs x ih =>
      have hKeys : k ∈ ((collectAll xs).set x.1 (((collectAll xs).get x.1).getD [] ++ [x.2])).keys ↔
          k = x.1 ∨ k ∈ (collectAll xs).keys := mem_keys_setEntry
      rw [collectAll_concat, collect, hKeys, ih, List.map_append, List.mem_append, or_comm]
      exact or_congr_right List.mem_singleton.symm

/-- Key by key, in any order of the keys, the values are those that came. -/
theorem flatMap_valuesOf_perm {keys : List String} (hNodup : keys.Nodup) :
    ∀ xs : List (String × β), (∀ x ∈ xs, x.1 ∈ keys) →
      (keys.flatMap fun k => xs.filter fun x => x.1 = k).Perm xs := by
  induction keys with
  | nil =>
      intro xs hAll
      cases xs with
      | nil => exact .nil
      | cons x xs => exact absurd (hAll x List.mem_cons_self) List.not_mem_nil
  | cons k keys ih =>
      obtain ⟨hNew, hRest⟩ := List.nodup_cons.mp hNodup
      intro xs hAll
      have hOthers : ∀ x ∈ xs.filter (fun x => !decide (x.1 = k)), x.1 ∈ keys := by
        intro x hx
        obtain ⟨hMem, hNe⟩ := List.mem_filter.mp hx
        exact (List.mem_cons.mp (hAll x hMem)).resolve_left (by simpa using hNe)
      have hSame : ∀ l ∈ keys, (xs.filter (fun x => !decide (x.1 = k))).filter
          (fun x => x.1 = l) = xs.filter fun x => x.1 = l := by
        intro l hl
        rw [List.filter_filter]
        refine List.filter_congr fun x _ => ?_
        by_cases hEq : x.1 = l
        · have hNe : l ≠ k := fun h => hNew (h ▸ hl)
          simp [hEq, hNe]
        · simp [hEq]
      rw [List.flatMap_cons]
      refine (List.Perm.append_left _ ?_).trans (List.filter_append_perm (fun x => x.1 = k) xs)
      rw [← List.flatMap_congr hSame]
      exact ih hRest _ hOthers

end Grouping
