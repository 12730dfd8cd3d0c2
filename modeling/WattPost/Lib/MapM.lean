import Mathlib.Data.List.Basic

/-! A comprehension whose body may raise: `List.mapM` in `Option`. -/
namespace WattPost

section MapM

variable {α β γ : Type} {f : α → Option β} {l : List α} {ys : List β}

theorem mapM_cons_eq_some {a : α} :
    (a :: l).mapM f = some ys ↔
      ∃ b, f a = some b ∧ ∃ rest, l.mapM f = some rest ∧ b :: rest = ys := by
  rw [List.mapM_cons]
  simp only [Option.bind_eq_bind, Option.bind_eq_some_iff, Option.pure_def, Option.some.injEq]

theorem exists_mapM (h : ∀ x ∈ l, ∃ y, f x = some y) : ∃ ys, l.mapM f = some ys := by
  induction l with
  | nil => exact ⟨[], rfl⟩
  | cons x l ih =>
      obtain ⟨y, hy⟩ := h x List.mem_cons_self
      obtain ⟨ys, hys⟩ := ih fun x' hx' => h x' (List.mem_cons_of_mem _ hx')
      exact ⟨y :: ys, mapM_cons_eq_some.mpr ⟨y, hy, ys, hys, rfl⟩⟩

theorem mem_of_mapM (h : l.mapM f = some ys) {x : α} (hx : x ∈ l) : ∃ y, f x = some y := by
  induction l generalizing ys with
  | nil => cases hx
  | cons a l ih =>
      obtain ⟨b, hb, bs, hbs, -⟩ := mapM_cons_eq_some.mp h
      rcases List.mem_cons.mp hx with rfl | hx
      · exact ⟨b, hb⟩
      · exact ih hbs hx

theorem mapM_isSome_iff : (l.mapM f).isSome = true ↔ ∀ x ∈ l, (f x).isSome = true := by
  constructor
  · intro h x hx
    obtain ⟨ys, hys⟩ := Option.isSome_iff_exists.mp h
    exact Option.isSome_iff_exists.mpr (mem_of_mapM hys hx)
  · intro h
    exact Option.isSome_iff_exists.mpr
      (exists_mapM fun x hx => Option.isSome_iff_exists.mp (h x hx))

theorem mem_mapM (h : l.mapM f = some ys) {y : β} : y ∈ ys ↔ ∃ x ∈ l, f x = some y := by
  induction l generalizing ys with
  | nil =>
      cases h
      simp
  | cons a l ih =>
      obtain ⟨b, hb, rest, hRest, rfl⟩ := mapM_cons_eq_some.mp h
      simp [ih hRest, hb, eq_comm]

/-- A body that never raises. -/
theorem mapM_eq_map {g : α → β} (h : ∀ x ∈ l, f x = some (g x)) :
    l.mapM f = some (l.map g) := by
  induction l with
  | nil => rfl
  | cons x l ih =>
      exact mapM_cons_eq_some.mpr ⟨g x, h x List.mem_cons_self, l.map g,
        ih fun x' hx' => h x' (List.mem_cons_of_mem _ hx'), rfl⟩

/-- A body that can be undone. -/
theorem map_of_mapM {g : β → α} (hInverse : ∀ a b, f a = some b → g b = a)
    (h : l.mapM f = some ys) : ys.map g = l := by
  induction l generalizing ys with
  | nil =>
      cases h
      rfl
  | cons a l ih =>
      obtain ⟨b, hb, rest, hRest, rfl⟩ := mapM_cons_eq_some.mp h
      rw [List.map_cons, hInverse a b hb, ih hRest]

/-- Chunks that are made of an item and of what the body gives for it. -/
theorem mem_zipWith_flatten {f : α → List β → List β} {g : α → Option (List β)}
    {ls : List (List β)} (h : l.mapM g = some ls) {x : β} :
    x ∈ (List.zipWith f l ls).flatten ↔ ∃ a ∈ l, ∃ bs, g a = some bs ∧ x ∈ f a bs := by
  induction l generalizing ls with
  | nil =>
      cases h
      simp
  | cons a l ih =>
      obtain ⟨bs, hbs, rest, hRest, rfl⟩ := mapM_cons_eq_some.mp h
      simp [ih hRest, hbs]

end MapM

end WattPost
