import Mathlib.Data.List.Sort
import Mathlib.Order.Basic

/-! Reading rows page by page behind a watermark. The rows come in
nondecreasing order of a bucket, and a reader asks for the rows after its
watermark, then moves the watermark to the bucket of the last row it was given.
A page that overflows its limit drops the trailing bucket, so that a bucket
never ends up in two pages; one bucket wider than the limit is asked for again,
from a source of its own. -/
namespace Paging

variable {R B : Type} [LinearOrder B] (f : R → B)

/-- Rows in nondecreasing bucket order. -/
abbrev Ordered (rows : List R) : Prop := rows.Pairwise (fun x y => f x ≤ f y)

/-- The rows newer than a watermark. -/
def after (wm : B) (rows : List R) : List R := rows.filter (fun x => wm < f x)

/-- The rows of one bucket. -/
def bucketOf (b : B) (rows : List R) : List R := rows.filter (fun x => f x = b)

/-- One page of at most `limit` rows; `wide` answers for a bucket that does not
fit. -/
def page (limit : Nat) (wide : B → List R) (rows : List R) : List R :=
  match rows[limit]? with
  | none => rows
  | some r =>
      let kept := (rows.take limit).filter (fun x => f x < f r)
      if kept.isEmpty then wide (f r) else kept

/-- Read pages until one is empty. `none` stands for running out of fuel. -/
def drain (fetch : B → List R) : Nat → B → Option (List (List R))
  | 0, _ => none
  | fuel + 1, wm =>
      match (fetch wm).getLast? with
      | none => some []
      | some r => (drain fetch fuel (f r)).map (fetch wm :: ·)

/-- The watermark at which a reader stopped that has been given these pages. -/
def lastWatermark (wm : B) (pages : List (List R)) : B :=
  (pages.flatten.getLast?).elim wm f

/-- The pages hold every row after the watermark once, in bucket order, with no
bucket in two pages, and the reader stopped where no row was left. -/
structure Lossless (rows : List R) (wm : B) (pages : List (List R)) : Prop where
  once : pages.flatten.Perm (after f wm rows)
  ordered : Ordered f pages.flatten
  whole : pages.Pairwise (fun p q => ∀ x ∈ p, ∀ y ∈ q, f x ≠ f y)
  caughtUp : after f (lastWatermark f wm pages) rows = []

variable {f}

@[simp] theorem mem_after {wm : B} {rows : List R} {x : R} :
    x ∈ after f wm rows ↔ x ∈ rows ∧ wm < f x := by
  simp [after]

@[simp] theorem mem_bucketOf {b : B} {rows : List R} {x : R} :
    x ∈ bucketOf f b rows ↔ x ∈ rows ∧ f x = b := by
  simp [bucketOf]

/-- A page looks at one row past its limit and no further. -/
theorem page_take (limit : Nat) (wide : B → List R) (rows : List R) :
    page f limit wide (rows.take (limit + 1)) = page f limit wide rows := by
  have hGet : (rows.take (limit + 1))[limit]? = rows[limit]? :=
    List.getElem?_take_of_lt (Nat.lt_succ_self limit)
  rw [page, page, hGet]
  cases hr : rows[limit]? with
  | none =>
      have hLen : rows.length ≤ limit := List.getElem?_eq_none_iff.mp hr
      exact List.take_of_length_le (hLen.trans (Nat.le_succ limit))
  | some r => simp only [List.take_take, Nat.min_eq_left (Nat.le_succ limit)]

/-- A page holds rows, or the answer for a bucket of a row. -/
theorem mem_page {limit : Nat} {wide : B → List R} {rows : List R} {x : R}
    (hx : x ∈ page f limit wide rows) : x ∈ rows ∨ ∃ y ∈ rows, x ∈ wide (f y) := by
  rw [page] at hx
  cases hr : rows[limit]? with
  | none =>
      rw [hr] at hx
      exact Or.inl hx
  | some r =>
      simp only [hr] at hx
      split_ifs at hx
      · exact Or.inr ⟨r, List.mem_of_getElem? hr, hx⟩
      · exact Or.inl (List.mem_of_mem_take (List.mem_filter.mp hx).1)

/-- Rows in bucket order fall apart at any bucket. -/
theorem Ordered.split {rows : List R} (h : Ordered f rows) (p : B → Bool)
    (hDown : ∀ a b, a ≤ b → p b = true → p a = true) :
    rows = rows.filter (fun x => p (f x)) ++ rows.filter (fun x => !p (f x)) := by
  induction rows with
  | nil => rfl
  | cons x rows ih =>
      obtain ⟨hHead, hTail⟩ := List.pairwise_cons.mp h
      by_cases hx : p (f x) = true
      · simp only [List.filter_cons, hx, if_true, Bool.not_true, Bool.false_eq_true, if_false,
          List.cons_append]
        rw [← ih hTail]
      · have hNone : ∀ y ∈ x :: rows, ¬ p (f y) = true := by
          intro y hy hpy
          rcases List.mem_cons.mp hy with rfl | hy
          · exact hx hpy
          · exact hx (hDown _ _ (hHead y hy) hpy)
        rw [List.filter_eq_nil_iff.mpr hNone, List.nil_append, List.filter_eq_self.mpr]
        intro y hy
        simpa using hNone y hy

theorem Ordered.le_getLast {rows : List R} (h : Ordered f rows) {last : R}
    (hl : rows.getLast? = some last) : ∀ x ∈ rows, f x ≤ f last := by
  intro x hx
  obtain ⟨init, rfl⟩ := List.getLast?_eq_some_iff.mp hl
  rcases List.mem_append.mp hx with hx | hx
  · exact (List.pairwise_append.mp h).2.2 x hx last (by simp)
  · exact le_of_eq (congrArg f (by simpa using hx))

/-- The rows kept on an overflow are those before the bucket that overflows. -/
theorem Ordered.kept_eq {limit : Nat} {rows : List R} (h : Ordered f rows) {r : R}
    (hr : rows[limit]? = some r) :
    (rows.take limit).filter (fun x => f x < f r) = rows.filter (fun x => f x < f r) := by
  obtain ⟨hlt, hrr⟩ := List.getElem?_eq_some_iff.mp hr
  have hOrd := h.sublist (List.drop_sublist limit rows)
  rw [List.drop_eq_getElem_cons hlt, hrr] at hOrd
  have hDrop : (rows.drop limit).filter (fun x => f x < f r) = [] := by
    rw [List.filter_eq_nil_iff, List.drop_eq_getElem_cons hlt, hrr]
    intro y hy
    rcases List.mem_cons.mp hy with rfl | hy
    · simp
    · simpa using (List.pairwise_cons.mp hOrd).1 y hy
  conv_rhs => rw [← List.take_append_drop limit rows, List.filter_append, hDrop, List.append_nil]

theorem Ordered.lt_length {limit : Nat} {rows : List R} (h : Ordered f rows) {r : R}
    (hr : rows[limit]? = some r) :
    limit < (rows.filter (fun x => f x ≤ f r)).length := by
  have hSplit : rows.take (limit + 1) = rows.take limit ++ [r] := by
    rw [List.take_add_one, hr]
    rfl
  have hHead : ∀ x ∈ rows.take (limit + 1), f x ≤ f r :=
    Ordered.le_getLast (h.sublist (List.take_sublist _ _)) (by rw [hSplit]; simp)
  have hSub := (List.take_sublist (limit + 1) rows).filter (fun x => f x ≤ f r)
  rw [List.filter_eq_self.mpr (by simpa using hHead)] at hSub
  have hLen := hSub.length_le
  rw [List.length_take] at hLen
  have := (List.getElem?_eq_some_iff.mp hr).1
  omega

/-- The first rows, up to and including the bucket of `last`, and the rest. -/
structure Front (f : R → B) (rows chunk rest : List R) (last : R) : Prop where
  split : rows = chunk ++ rest
  getLast : chunk.getLast? = some last
  le : ∀ x ∈ chunk, f x ≤ f last
  lt : ∀ y ∈ rest, f last < f y

/-- The rows up to some bucket are a front. -/
theorem Ordered.front {rows : List R} (h : Ordered f rows) (p : B → Bool)
    (hDown : ∀ a b, a ≤ b → p b = true → p a = true)
    (hne : rows.filter (fun x => p (f x)) ≠ []) :
    Front f rows (rows.filter (fun x => p (f x))) (rows.filter (fun x => !p (f x)))
      ((rows.filter (fun x => p (f x))).getLast hne) := by
  have hLast := List.getLast?_eq_some_getLast hne
  refine ⟨h.split p hDown, hLast,
    Ordered.le_getLast (h.sublist List.filter_sublist) hLast, ?_⟩
  intro y hy
  have hp := (List.mem_filter.mp (List.getLast_mem hne)).2
  have hNot := (List.mem_filter.mp hy).2
  by_contra hle
  rw [hDown _ _ (not_lt.mp hle) hp] at hNot
  cases hNot

/-- What a page is: either it is a run of whole buckets that fits the limit, or
the first bucket does not fit and is asked for again. -/
theorem page_cases (limit : Nat) (wide : B → List R) {rows : List R} (h : Ordered f rows)
    (hne : rows ≠ []) :
    ∃ chunk rest last, Front f rows chunk rest last ∧
      ((page f limit wide rows = chunk ∧ chunk.length ≤ limit) ∨
        (page f limit wide rows = wide (f last) ∧ limit < chunk.length ∧
          ∀ x ∈ chunk, f x = f last)) := by
  cases hr : rows[limit]? with
  | none =>
      have hLen : rows.length ≤ limit := List.getElem?_eq_none_iff.mp hr
      have hl : rows.getLast? = some (rows.getLast hne) := List.getLast?_eq_some_getLast hne
      refine ⟨rows, [], _, ⟨by simp, hl, h.le_getLast hl, by simp⟩, Or.inl ⟨?_, hLen⟩⟩
      rw [page, hr]
  | some r =>
      have hPage : page f limit wide rows =
          if (rows.filter (fun x => f x < f r)).isEmpty then wide (f r)
          else rows.filter (fun x => f x < f r) := by
        rw [page, hr]
        simp only [h.kept_eq hr]
      by_cases hNil : rows.filter (fun x => f x < f r) = []
      · have hEq : ∀ x ∈ rows.filter (fun x => f x ≤ f r), f x = f r := by
          intro x hx
          obtain ⟨hx, hle⟩ := List.mem_filter.mp hx
          have hGe : ¬f x < f r := by simpa using List.filter_eq_nil_iff.mp hNil x hx
          exact le_antisymm (by simpa using hle) (not_lt.mp hGe)
        have hLen := h.lt_length hr
        have hne' : rows.filter (fun x => f x ≤ f r) ≠ [] := List.ne_nil_of_length_pos (by omega)
        have hlr := hEq _ (List.getLast_mem hne')
        refine ⟨_, _, _, h.front (fun b => b ≤ f r) ?_ hne', Or.inr ⟨?_, hLen, ?_⟩⟩
        · intro a b hab hb
          simp only [decide_eq_true_eq] at hb ⊢
          exact le_trans hab hb
        · rw [hPage, hNil, hlr]
          rfl
        · intro x hx
          rw [hlr]
          exact hEq x hx
      · refine ⟨_, _, _, h.front (fun b => b < f r) ?_ hNil, Or.inl ⟨?_, ?_⟩⟩
        · intro a b hab hb
          simp only [decide_eq_true_eq] at hb ⊢
          exact lt_of_le_of_lt hab hb
        · rw [hPage, List.isEmpty_eq_false_iff.mpr hNil]
          rfl
        · rw [← h.kept_eq hr]
          exact (List.length_filter_le _ _).trans (List.length_take_le _ _)

/-! ### Draining -/

omit [LinearOrder B] in
theorem lastWatermark_cons {wm : B} {batch : List R} {r : R} (hr : batch.getLast? = some r)
    (pages : List (List R)) :
    lastWatermark f wm (batch :: pages) = lastWatermark f (f r) pages := by
  rw [lastWatermark, lastWatermark, List.flatten_cons, List.getLast?_append]
  cases hp : pages.flatten.getLast? with
  | none => rw [hr]; rfl
  | some r => rfl

variable (f) in
/-- The reader gets through, with some number of pages, and loses nothing. -/
def DrainsLosslessly (fetch : B → List R) (rows : List R) (wm : B) : Prop :=
  ∃ fuel pages, drain f fetch fuel wm = some pages ∧ Lossless f rows wm pages

variable (f) in
/-- Every bucket after the watermark that does not fit a page is found whole
when it is asked for again. -/
def WideBucketsFound (limit : Nat) (wide : B → List R) (rows : List R) (wm : B) : Prop :=
  ∀ b, wm < b → limit < (bucketOf f b rows).length → (wide b).Perm (bucketOf f b rows)

omit [LinearOrder B] in
theorem drain_succ_of_getLast? {fetch : B → List R} {wm : B} {r : R}
    (hr : (fetch wm).getLast? = some r) (fuel : Nat) :
    drain f fetch (fuel + 1) wm = (drain f fetch fuel (f r)).map (fetch wm :: ·) := by
  rw [drain, hr]

/-- A reader behind whom nothing is left stops at once. -/
theorem drainsLosslessly_of_nil {fetch : B → List R} {rows : List R} {wm : B}
    (hNone : after f wm rows = []) (hFetch : fetch wm = []) : DrainsLosslessly f fetch rows wm := by
  refine ⟨1, [], ?_, ?_, List.Pairwise.nil, List.Pairwise.nil, hNone⟩
  · rw [drain, hFetch]
    rfl
  · rw [hNone]
    exact List.Perm.refl _

theorem wideBucketsFound_of_nil {limit : Nat} {wide : B → List R} {rows : List R} {wm : B}
    (hNone : after f wm rows = []) : WideBucketsFound f limit wide rows wm := by
  intro b hb hLen
  obtain ⟨x, hx⟩ := List.exists_mem_of_length_pos (Nat.zero_lt_of_lt hLen)
  obtain ⟨hMem, hxb⟩ := mem_bucketOf.mp hx
  have hAfter : x ∈ after f wm rows := mem_after.mpr ⟨hMem, hxb ▸ hb⟩
  rw [hNone] at hAfter
  cases hAfter

namespace Front

variable {rows chunk rest : List R} {wm : B} {last : R}
  (h : Front f (after f wm rows) chunk rest last)
include h

theorem mem {x : R} (hx : x ∈ chunk) : x ∈ rows ∧ wm < f x := by
  apply mem_after.mp
  rw [h.split]
  exact List.mem_append_left _ hx

theorem last_mem : last ∈ chunk := List.mem_of_getLast? h.getLast

theorem wm_lt : wm < f last := (h.mem h.last_mem).2

theorem after_last : after f (f last) rows = rest := by
  have hAfter : after f (f last) rows = after f (f last) (after f wm rows) := by
    rw [after, after, after, List.filter_filter]
    apply List.filter_congr
    intro x _
    by_cases hx : f last < f x
    · simp [hx, lt_trans h.wm_lt hx]
    · simp [hx]
  rw [hAfter, h.split, after, List.filter_append, List.filter_eq_nil_iff.mpr,
    List.filter_eq_self.mpr, List.nil_append]
  · simpa using h.lt
  · simpa using h.le

theorem bucketOf_eq {b : B} (hwm : wm < b) (hb : b ≤ f last) :
    bucketOf f b rows = bucketOf f b chunk := by
  have hAfter : bucketOf f b rows = bucketOf f b (after f wm rows) := by
    rw [bucketOf, bucketOf, after, List.filter_filter]
    apply List.filter_congr
    intro x _
    by_cases hx : f x = b
    · simp [hx, hwm]
    · simp [hx]
  have hNone : bucketOf f b rest = [] := by
    rw [bucketOf, List.filter_eq_nil_iff]
    intro y hy
    simpa using ne_of_gt (lt_of_le_of_lt hb (h.lt y hy))
  rw [hAfter, h.split, bucketOf, List.filter_append, ← bucketOf, ← bucketOf, hNone,
    List.append_nil]

/-- A page that holds the rows of the front leaves the rest of the drain
exactly what it was. -/
theorem lossless_cons_iff {batch : List R} {r : R} (hPerm : batch.Perm chunk)
    (hOrd : Ordered f batch) (hr : batch.getLast? = some r) (hLast : f r = f last)
    (pages : List (List R)) :
    Lossless f rows wm (batch :: pages) ↔ Lossless f rows (f last) pages := by
  have hOnce : (batch :: pages).flatten.Perm (after f wm rows) ↔
      pages.flatten.Perm (after f (f last) rows) := by
    rw [h.split, h.after_last, List.flatten_cons]
    constructor
    · intro hFlat
      exact (List.perm_append_left_iff batch).mp (hFlat.trans (hPerm.symm.append_right rest))
    · intro hFlat
      exact (hFlat.append_left batch).trans (hPerm.append_right rest)
  have hWatermark : lastWatermark f wm (batch :: pages) = lastWatermark f (f last) pages := by
    rw [lastWatermark_cons hr, hLast]
  constructor
  · rintro ⟨once, ordered, whole, caughtUp⟩
    rw [List.flatten_cons] at ordered
    rw [hWatermark] at caughtUp
    exact ⟨hOnce.mp once, (List.pairwise_append.mp ordered).2.1,
      (List.pairwise_cons.mp whole).2, caughtUp⟩
  · rintro ⟨once, ordered, whole, caughtUp⟩
    have hLt : ∀ x ∈ batch, ∀ y ∈ pages.flatten, f x < f y := by
      intro x hx y hy
      have hy' := once.mem_iff.mp hy
      rw [h.after_last] at hy'
      exact lt_of_le_of_lt (h.le x (hPerm.mem_iff.mp hx)) (h.lt y hy')
    refine ⟨hOnce.mpr once, ?_, List.pairwise_cons.mpr ⟨?_, whole⟩, hWatermark ▸ caughtUp⟩
    · rw [List.flatten_cons]
      exact List.pairwise_append.mpr ⟨hOrd, ordered, fun x hx y hy => le_of_lt (hLt x hx y hy)⟩
    · intro p hp x hx y hy
      exact ne_of_lt (hLt x hx y (List.mem_flatten_of_mem hp hy))

theorem drainsLosslessly_iff {fetch : B → List R} {r : R} (hPerm : (fetch wm).Perm chunk)
    (hOrd : Ordered f (fetch wm)) (hr : (fetch wm).getLast? = some r) (hLast : f r = f last) :
    DrainsLosslessly f fetch rows wm ↔ DrainsLosslessly f fetch rows (f last) := by
  have hCons := h.lossless_cons_iff hPerm hOrd hr hLast
  constructor
  · rintro ⟨fuel, pages, hDrain, hLossless⟩
    cases fuel with
    | zero => cases hDrain
    | succ fuel =>
        rw [drain_succ_of_getLast? hr, hLast] at hDrain
        obtain ⟨later, hLater, rfl⟩ := Option.map_eq_some_iff.mp hDrain
        exact ⟨fuel, later, hLater, (hCons later).mp hLossless⟩
  · rintro ⟨fuel, pages, hDrain, hLossless⟩
    refine ⟨fuel + 1, fetch wm :: pages, ?_, (hCons pages).mpr hLossless⟩
    rw [drain_succ_of_getLast? hr, hLast, hDrain]
    rfl

/-- A lossless drain that starts with one bucket starts with all its rows. -/
theorem perm_of_drainsLosslessly {fetch : B → List R} (hChunk : ∀ x ∈ chunk, f x = f last)
    (hFetch : ∀ x ∈ fetch wm, f x = f last) (hDrains : DrainsLosslessly f fetch rows wm) :
    (fetch wm).Perm chunk := by
  obtain ⟨fuel, pages, hDrain, hLossless⟩ := hDrains
  have hOnce := hLossless.once
  rw [h.split] at hOnce
  cases fuel with
  | zero => cases hDrain
  | succ fuel =>
      cases hr : (fetch wm).getLast? with
      | none =>
          rw [drain, hr, Option.some.injEq] at hDrain
          subst hDrain
          simp only [List.flatten_nil, List.nil_perm, List.append_eq_nil_iff] at hOnce
          exact absurd hOnce.1 (List.ne_nil_of_mem h.last_mem)
      | some r =>
          have hMem := List.mem_of_getLast? hr
          rw [drain_succ_of_getLast? hr] at hDrain
          obtain ⟨later, _, rfl⟩ := Option.map_eq_some_iff.mp hDrain
          -- no later page has a row of this bucket, since no bucket is in two pages
          have hLater : bucketOf f (f last) later.flatten = [] := by
            rw [bucketOf, List.filter_eq_nil_iff]
            intro y hy
            obtain ⟨p, hp, hyp⟩ := List.mem_flatten.mp hy
            have hNe := (List.pairwise_cons.mp hLossless.whole).1 p hp r hMem y hyp
            rw [hFetch r hMem] at hNe
            simpa using Ne.symm hNe
          have hHere : bucketOf f (f last) (fetch wm) = fetch wm :=
            List.filter_eq_self.mpr (by simpa using hFetch)
          have hThere : bucketOf f (f last) (chunk ++ rest) = chunk := by
            rw [bucketOf, List.filter_append, List.filter_eq_self.mpr (by simpa using hChunk),
              List.filter_eq_nil_iff.mpr, List.append_nil]
            intro y hy
            simpa using ne_of_gt (h.lt y hy)
          have hBucket : (bucketOf f (f last) (fetch wm ++ later.flatten)).Perm
              (bucketOf f (f last) (chunk ++ rest)) := hOnce.filter _
          rwa [hThere, bucketOf, List.filter_append, ← bucketOf, ← bucketOf, hHere, hLater,
            List.append_nil] at hBucket

theorem wideBucketsFound_iff {limit : Nat} {wide : B → List R}
    (hFront : ∀ b, wm < b → b ≤ f last → limit < (bucketOf f b chunk).length →
      (wide b).Perm (bucketOf f b chunk)) :
    WideBucketsFound f limit wide rows wm ↔ WideBucketsFound f limit wide rows (f last) := by
  constructor
  · intro hFound b hb
    exact hFound b (lt_trans h.wm_lt hb)
  · intro hFound b hb
    rcases le_or_gt b (f last) with hle | hlt
    · rw [h.bucketOf_eq hb hle]
      exact hFront b hb hle
    · exact hFound b hlt

end Front

/-- A reader of pages loses nothing exactly when the wide buckets are found. -/
theorem drainsLosslessly_iff {fetch : B → List R} {limit : Nat} {wide : B → List R}
    {rows : List R} (hOrd : Ordered f rows)
    (hFetch : ∀ wm, fetch wm = page f limit wide (after f wm rows))
    (hWide : ∀ r ∈ rows, ∀ x ∈ wide (f r), f x = f r) (wm : B) :
    DrainsLosslessly f fetch rows wm ↔ WideBucketsFound f limit wide rows wm := by
  induction hn : (after f wm rows).length using Nat.strong_induction_on generalizing wm with
  | h n ih =>
    by_cases hne : after f wm rows = []
    · have hNil : fetch wm = [] := by
        rw [hFetch, hne]
        rfl
      exact iff_of_true (drainsLosslessly_of_nil hne hNil) (wideBucketsFound_of_nil hne)
    · have hOrdAfter : Ordered f (after f wm rows) := hOrd.sublist List.filter_sublist
      obtain ⟨chunk, rest, last, h, hPage⟩ := page_cases limit wide hOrdAfter hne
      have hLess : (after f (f last) rows).length < n := by
        rw [← hn, h.after_last, h.split, List.length_append]
        have := List.length_pos_of_mem h.last_mem
        omega
      rw [← hFetch] at hPage
      rcases hPage with ⟨hFits, hLen⟩ | ⟨hAsked, hLen, hSame⟩
      · have hChunkOrd : Ordered f (fetch wm) := by
          rw [h.split] at hOrdAfter
          rw [hFits]
          exact (List.pairwise_append.mp hOrdAfter).1
        rw [h.drainsLosslessly_iff (by rw [hFits]) hChunkOrd (by rw [hFits, h.getLast]) rfl,
          h.wideBucketsFound_iff]
        · exact ih _ hLess _ rfl
        · intro b _ _ hWideLen
          have := List.length_filter_le (fun x => f x = b) chunk
          rw [bucketOf] at hWideLen
          omega
      · have hBucket : bucketOf f (f last) chunk = chunk :=
          List.filter_eq_self.mpr (by simpa using hSame)
        have hFetchSame : ∀ x ∈ fetch wm, f x = f last := by
          rw [hAsked]
          exact hWide last (h.mem h.last_mem).1
        by_cases hPerm : (fetch wm).Perm chunk
        · have hFetchOrd : Ordered f (fetch wm) := by
            refine List.pairwise_iff_forall_sublist.mpr ?_
            intro x y hxy
            rw [hFetchSame x (hxy.subset (by simp)), hFetchSame y (hxy.subset (by simp))]
          have hFetchNe : fetch wm ≠ [] :=
            List.ne_nil_of_mem (hPerm.symm.subset h.last_mem)
          rw [h.drainsLosslessly_iff hPerm hFetchOrd (List.getLast?_eq_some_getLast hFetchNe)
            (hFetchSame _ (List.getLast_mem hFetchNe)), h.wideBucketsFound_iff]
          · exact ih _ hLess _ rfl
          · intro b _ _ hWideLen
            obtain ⟨x, hx⟩ := List.exists_mem_of_length_pos (Nat.zero_lt_of_lt hWideLen)
            obtain ⟨hMem, rfl⟩ := mem_bucketOf.mp hx
            rw [hSame x hMem, hBucket, ← hAsked]
            exact hPerm
        · refine iff_of_false (fun hDrains => hPerm ?_) (fun hFound => hPerm ?_)
          · exact h.perm_of_drainsLosslessly hSame hFetchSame hDrains
          · have hPerm' := hFound (f last) h.wm_lt
            rw [h.bucketOf_eq h.wm_lt (le_refl _), hBucket, ← hAsked] at hPerm'
            exact hPerm' hLen

end Paging
