import Mathlib.Data.List.Chain
import Mathlib.Data.List.Induction

/-! Hash chains. Each entry of a log has a text and names the hash of the text before it. The
text of one entry fixes all the texts before it, unless two different texts have one hash. -/
namespace HashChain

variable {α T H : Type}

/-- The text of an entry, what the entry says of the one before it, and the hash. -/
structure Links (α T H : Type) where
  text : α → T
  prev : α → Option H
  hash : T → H

variable (c : Links α T H)

/-- Every entry names the one before it, and the first names none. -/
structure Linked (entries : List α) : Prop where
  links : entries.IsChain fun a b => c.prev b = some (c.hash (c.text a))
  first : ∀ a, entries.head? = some a → c.prev a = none

/-- Two different texts, one of either log, that have one hash. -/
def Collision (xs ys : List α) : Prop :=
  ∃ a ∈ xs, ∃ b ∈ ys, c.text a ≠ c.text b ∧ c.hash (c.text a) = c.hash (c.text b)

/-- Over both logs, the text of an entry determines which entry it names. -/
def Names (xs ys : List α) : Prop :=
  ∀ a ∈ xs, ∀ b ∈ ys, c.text a = c.text b → c.prev a = c.prev b

variable {c} {xs ys : List α} {a b : α}

theorem linked_nil : Linked c [] where
  links := List.isChain_nil
  first _ h := by cases h

theorem Linked.of_prefix (h : Linked c ys) (hPrefix : xs <+: ys) : Linked c xs where
  links := h.links.prefix hPrefix
  first a hFirst := by
    obtain ⟨rest, rfl⟩ := hPrefix
    refine h.first a ?_
    rw [List.head?_append, hFirst, Option.some_or]

/-- What the last of several entries names is the one before it. -/
theorem Linked.prev_concat (h : Linked c (xs ++ [a] ++ [b])) :
    c.prev b = some (c.hash (c.text a)) := by
  have hLast := (List.isChain_append.mp h.links).2.2
  exact hLast a (by simp) b (by simp)

theorem Linked.prev_singleton (h : Linked c [a]) : c.prev a = none := h.first a rfl

/-- A log grows by an entry that names its last one. -/
theorem Linked.concat (h : Linked c xs)
    (hPrev : c.prev a = xs.getLast?.map fun last => c.hash (c.text last)) :
    Linked c (xs ++ [a]) := by
  induction xs using List.reverseRecOn with
  | nil =>
      refine ⟨List.isChain_singleton a, ?_⟩
      intro first hFirst
      cases hFirst
      exact hPrev
  | append_singleton xs last _ =>
      rw [List.getLast?_concat, Option.map_some] at hPrev
      refine ⟨List.isChain_append.mpr ⟨h.links, List.isChain_singleton a, ?_⟩, ?_⟩
      · intro last' hLast first hFirst
        rw [List.getLast?_concat] at hLast
        cases hLast
        cases hFirst
        exact hPrev
      · intro first hFirst
        refine h.first first ?_
        rw [List.head?_append] at hFirst
        cases hHead : (xs ++ [last]).head? with
        | none => simp at hHead
        | some other =>
            rw [hHead, Option.some_or] at hFirst
            exact hFirst

theorem Collision.mono {xs' ys' : List α} (h : Collision c xs ys) (hx : xs ⊆ xs')
    (hy : ys ⊆ ys') : Collision c xs' ys' := by
  obtain ⟨a, ha, b, hb, hTexts, hHash⟩ := h
  exact ⟨a, hx ha, b, hy hb, hTexts, hHash⟩

theorem Names.mono {xs' ys' : List α} (h : Names c xs' ys') (hx : xs ⊆ xs') (hy : ys ⊆ ys') :
    Names c xs ys := fun a ha b hb => h a (hx ha) b (hy hb)

/-- Two logs that end in one text have the same texts, back to their first entries, or there is a
collision among them. -/
theorem texts_eq_or_collision (hx : Linked c (xs ++ [a])) (hy : Linked c (ys ++ [b]))
    (hText : c.text a = c.text b) (hNames : Names c (xs ++ [a]) (ys ++ [b])) :
    (xs ++ [a]).map c.text = (ys ++ [b]).map c.text ∨ Collision c xs ys := by
  induction xs using List.reverseRecOn generalizing a ys b with
  | nil =>
      have hPrev := hNames a (by simp) b (by simp) hText
      rw [Linked.prev_singleton hx] at hPrev
      induction ys using List.reverseRecOn with
      | nil => exact Or.inl (by simp [hText])
      | append_singleton ys b' _ =>
          rw [Linked.prev_concat hy] at hPrev
          cases hPrev
  | append_singleton xs a' ih =>
      have hPrev := hNames a (by simp) b (by simp) hText
      rw [Linked.prev_concat hx] at hPrev
      induction ys using List.reverseRecOn with
      | nil =>
          rw [Linked.prev_singleton hy] at hPrev
          cases hPrev
      | append_singleton ys b' _ =>
          rw [Linked.prev_concat hy, Option.some.injEq] at hPrev
          by_cases hBefore : c.text a' = c.text b'
          · have hEarlier := ih (hx.of_prefix (List.prefix_append _ _))
              (hy.of_prefix (List.prefix_append _ _)) hBefore
              (hNames.mono (List.subset_append_left _ _) (List.subset_append_left _ _))
            refine hEarlier.imp (fun hSame => ?_) fun hCollides =>
              hCollides.mono (List.subset_append_left _ _) (List.subset_append_left _ _)
            rw [List.map_append, hSame]
            simp [hText]
          · exact Or.inr ⟨a', by simp, b', by simp, hBefore, hPrev⟩

/-- A log whose last text stands somewhere in another one is the beginning of it, or there is a
collision. -/
theorem prefix_or_collision (hx : Linked c (xs ++ [a])) (hy : Linked c ys)
    (hMem : c.text a ∈ ys.map c.text) (hNames : Names c (xs ++ [a]) ys) :
    (xs ++ [a]).map c.text <+: ys.map c.text ∨ Collision c xs ys := by
  obtain ⟨b, hb, hText⟩ := List.mem_map.mp hMem
  obtain ⟨front, back, rfl⟩ := List.append_of_mem hb
  have hSplit : front ++ b :: back = (front ++ [b]) ++ back := by simp
  rw [hSplit] at hy hNames ⊢
  have hEarlier := texts_eq_or_collision hx (hy.of_prefix (List.prefix_append _ _)) hText.symm
    (hNames.mono (List.Subset.refl _) (List.subset_append_left _ _))
  refine hEarlier.imp (fun hSame => ?_) fun hCollides =>
    hCollides.mono (List.Subset.refl _) ?_
  · rw [hSame]
    exact ⟨back.map c.text, List.map_append.symm⟩
  · exact List.Subset.trans (List.subset_append_left _ _) (List.subset_append_left _ _)

/-- Where the texts of a log begin another one, so does whatever the texts determine. -/
theorem map_prefix_of_texts {β : Type} {g : α → β} (h : xs.map c.text <+: ys.map c.text)
    (hText : ∀ a ∈ xs, ∀ b ∈ ys, c.text a = c.text b → g a = g b) : xs.map g <+: ys.map g := by
  induction xs generalizing ys with
  | nil => exact List.nil_prefix
  | cons a xs ih =>
      cases ys with
      | nil => simp at h
      | cons b ys =>
          rw [List.map_cons, List.map_cons, List.cons_prefix_cons] at h
          rw [List.map_cons, List.map_cons, List.cons_prefix_cons]
          exact ⟨hText a List.mem_cons_self b List.mem_cons_self h.1, ih h.2 fun a' ha' b' hb' =>
            hText a' (List.mem_cons_of_mem _ ha') b' (List.mem_cons_of_mem _ hb')⟩

end HashChain
