import Mathlib.Data.List.Sublists

/-! A queue with a greatest length. To post to a full one drops its oldest entries. -/
namespace Mailbox

variable {α : Type} {cap : Nat}

/-- The new entry is put behind the others as soon as there is room for it. -/
def post (cap : Nat) : List α → α → List α
  | [], x => if 0 < cap then [x] else []
  | q :: qs, x => if (q :: qs).length < cap then q :: qs ++ [x] else post cap qs x

/-- What is kept is an end of the queue, and the new entry behind it. -/
theorem post_eq (hCap : 0 < cap) (queue : List α) (x : α) :
    ∃ kept, kept <:+ queue ∧ post cap queue x = kept ++ [x] ∧ kept.length < cap := by
  induction queue with
  | nil => exact ⟨[], List.suffix_rfl, by simp [post, hCap], hCap⟩
  | cons q qs ih =>
      by_cases hRoom : (q :: qs).length < cap
      · exact ⟨q :: qs, List.suffix_rfl, by simp only [post, if_pos hRoom], hRoom⟩
      · obtain ⟨kept, hKept, hPost, hLength⟩ := ih
        refine ⟨kept, hKept.trans (List.suffix_cons q qs), ?_, hLength⟩
        rw [post, if_neg hRoom, hPost]

theorem length_post_le (hCap : 0 < cap) (queue : List α) (x : α) :
    (post cap queue x).length ≤ cap := by
  obtain ⟨kept, -, hPost, hLength⟩ := post_eq hCap queue x
  rw [hPost, List.length_append]
  exact hLength

theorem getLast?_post (hCap : 0 < cap) (queue : List α) (x : α) :
    (post cap queue x).getLast? = some x := by
  obtain ⟨kept, -, hPost, -⟩ := post_eq hCap queue x
  simp [hPost]

/-- The queue is always an end of what was posted. -/
theorem suffix_post (hCap : 0 < cap) {queue posted : List α} (h : queue <:+ posted) (x : α) :
    post cap queue x <:+ posted ++ [x] := by
  obtain ⟨kept, hKept, hPost, -⟩ := post_eq hCap queue x
  rw [hPost]
  obtain ⟨before, rfl⟩ := hKept.trans h
  exact ⟨before, by simp⟩

/-- A reader who has seen some of what was posted, and has the queue before it, sees nothing
else and nothing twice. -/
theorem sublist_post (hCap : 0 < cap) {seen queue posted : List α}
    (h : (seen ++ queue).Sublist posted) (x : α) :
    (seen ++ post cap queue x).Sublist (posted ++ [x]) := by
  obtain ⟨kept, hKept, hPost, -⟩ := post_eq hCap queue x
  have hSeen : (seen ++ kept).Sublist posted :=
    ((List.Sublist.refl seen).append hKept.sublist).trans h
  rw [hPost, ← List.append_assoc]
  exact hSeen.append (List.Sublist.refl [x])

end Mailbox
