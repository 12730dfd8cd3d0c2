import Mathlib.Data.Nat.Notation
import Mathlib.Data.List.GetD
import Mathlib.Logic.Function.Iterate

/-! A shift register with feedback: bits are fed in at the low end and the register
moves down by one place for each. Feeding is linear in register and bits, and with
the top bit in the feedback no burst as wide as the register is lost. -/
namespace ShiftRegister

variable {w : Nat}

/-- One place down; a bit that falls out comes back as the feedback word. -/
def shift (feedback s : BitVec w) : BitVec w :=
  if s.getLsbD 0 then s >>> 1 ^^^ feedback else s >>> 1

/-- A bit as a register, at the low end. -/
def low (bit : Bool) : BitVec w := if bit then 1 else 0

def feed (feedback s : BitVec w) (bit : Bool) : BitVec w := shift feedback (s ^^^ low bit)

def feedAll (feedback s : BitVec w) (bits : List Bool) : BitVec w := bits.foldl (feed feedback) s

@[simp] theorem feedAll_nil (feedback s : BitVec w) : feedAll feedback s [] = s := rfl

@[simp] theorem feedAll_cons (feedback s : BitVec w) (bit : Bool) (bits : List Bool) :
    feedAll feedback s (bit :: bits) = feedAll feedback (feed feedback s bit) bits := rfl

theorem feedAll_append (feedback s : BitVec w) (xs ys : List Bool) :
    feedAll feedback s (xs ++ ys) = feedAll feedback (feedAll feedback s xs) ys :=
  List.foldl_append

/-! ### Linearity -/

theorem xor_xor_xor_comm (a b c d : BitVec w) : a ^^^ b ^^^ (c ^^^ d) = a ^^^ c ^^^ (b ^^^ d) := by
  ac_rfl

theorem shift_xor (feedback s t : BitVec w) :
    shift feedback (s ^^^ t) = shift feedback s ^^^ shift feedback t := by
  unfold shift
  rw [BitVec.getLsbD_xor, BitVec.ushiftRight_xor_distrib]
  cases s.getLsbD 0 <;> cases t.getLsbD 0
  · rfl
  · exact BitVec.xor_assoc ..
  · simp only [Bool.bne_false, if_true, Bool.false_eq_true, if_false]
    ac_rfl
  · simp only [bne_self_eq_false, Bool.false_eq_true, if_false, if_true]
    rw [xor_xor_xor_comm, BitVec.xor_self, BitVec.xor_zero]

theorem low_xor (a b : Bool) : (low (a ^^ b) : BitVec w) = low a ^^^ low b := by
  cases a <;> cases b <;> simp [low]

theorem feed_xor (feedback s t : BitVec w) (a b : Bool) :
    feed feedback (s ^^^ t) (a ^^ b) = feed feedback s a ^^^ feed feedback t b := by
  rw [feed, low_xor, xor_xor_xor_comm, shift_xor]
  rfl

theorem feedAll_xor (feedback : BitVec w) {xs ys : List Bool} (h : xs.length = ys.length)
    (s t : BitVec w) :
    feedAll feedback (s ^^^ t) (List.zipWith xor xs ys) =
      feedAll feedback s xs ^^^ feedAll feedback t ys := by
  induction xs generalizing ys s t with
  | nil =>
      rw [List.eq_nil_of_length_eq_zero h.symm]
      rfl
  | cons a xs ih =>
      cases ys with
      | nil => cases h
      | cons b ys =>
          simp only [List.zipWith_cons_cons, feedAll_cons, feed_xor]
          exact ih (Nat.succ.inj h) _ _

/-! ### Zeros -/

@[simp] theorem feed_false (feedback s : BitVec w) :
    feed feedback s false = shift feedback s := by
  rw [feed, low, if_neg Bool.false_ne_true, BitVec.ofNat_eq_ofNat, BitVec.xor_zero]

@[simp] theorem shift_zero (feedback : BitVec w) : shift feedback 0 = 0 := by
  simp [shift]

/-- Zeros only move the register. -/
theorem feedAll_zeros (feedback s : BitVec w) {bits : List Bool} (h : ∀ b ∈ bits, b = false) :
    feedAll feedback s bits = (shift feedback)^[bits.length] s := by
  induction bits generalizing s with
  | nil => rfl
  | cons b bits ih =>
      rw [h b (List.mem_cons_self ..), feedAll_cons, feed_false,
        ih _ fun c hc => h c (List.mem_cons_of_mem _ hc)]
      rfl

theorem feedAll_zero_zeros (feedback : BitVec w) {bits : List Bool}
    (h : ∀ b ∈ bits, b = false) : feedAll feedback 0 bits = 0 := by
  rw [feedAll_zeros feedback 0 h]
  exact Function.iterate_fixed (shift_zero feedback) _

/-! ### The bits that empty a register -/

theorem getLsbD_low (bit : Bool) (i : Nat) :
    (low bit : BitVec w).getLsbD i = (decide (i = 0) && decide (0 < w) && bit) := by
  cases bit with
  | false => simp [low]
  | true => simp [low, Bool.and_comm]

/-- A register whose low bit is fed in moves down without feedback. -/
theorem feed_self (feedback s : BitVec w) (i : Nat) :
    (feed feedback s (s.getLsbD 0)).getLsbD i = s.getLsbD (i + 1) := by
  have hLow : (s ^^^ low (s.getLsbD 0)).getLsbD 0 = false := by
    rw [BitVec.getLsbD_xor, getLsbD_low]
    by_cases hw : 0 < w
    · simp [hw]
    · simp [hw, BitVec.getLsbD_of_ge s 0 (by omega)]
  rw [feed, shift, hLow, if_neg Bool.false_ne_true, BitVec.getLsbD_ushiftRight,
    BitVec.getLsbD_xor, getLsbD_low, Nat.add_comm 1 i]
  simp

/-- Feeding a register its own bits empties it. -/
theorem feedAll_self (feedback : BitVec w) {s : BitVec w} {bits : List Bool}
    (h : ∀ i, s.getLsbD i = bits.getD i false) : feedAll feedback s bits = 0 := by
  induction bits generalizing s with
  | nil => exact BitVec.eq_of_getLsbD_eq fun i _ => by simpa using h i
  | cons b bits ih =>
      have hHead : s.getLsbD 0 = b := h 0
      rw [feedAll_cons, ← hHead]
      refine ih fun i => ?_
      rw [feed_self, h (i + 1)]
      rfl

/-- With the top bit in the feedback, a register that ends up clear at the top has
been fed its low bit. -/
theorem eq_getLsbD_of_feed {feedback s : BitVec w} {bit : Bool} (hw : 0 < w)
    (hTop : feedback.getLsbD (w - 1) = true)
    (h : (feed feedback s bit).getLsbD (w - 1) = false) : bit = s.getLsbD 0 := by
  by_contra hne
  have hLow : (s ^^^ low bit).getLsbD 0 = true := by
    rw [BitVec.getLsbD_xor, getLsbD_low]
    cases hs : s.getLsbD 0 <;> cases bit <;> simp_all
  have hGe : w ≤ 1 + (w - 1) := by omega
  rw [feed, shift, if_pos hLow, BitVec.getLsbD_xor, BitVec.getLsbD_ushiftRight,
    BitVec.getLsbD_of_ge _ _ hGe, hTop] at h
  cases h

/-- Only its own bits empty a register, when they are no more than it holds. -/
theorem getLsbD_of_feedAll_eq_zero {feedback s : BitVec w} {bits : List Bool}
    (hTop : feedback.getLsbD (w - 1) = true) (hLen : bits.length ≤ w)
    (h : feedAll feedback s bits = 0) (i : Nat) : s.getLsbD i = bits.getD i false := by
  induction bits generalizing s i with
  | nil =>
      rw [feedAll_nil] at h
      simp [h]
  | cons b bits ih =>
      have hBits : bits.length < w := hLen
      have hRest := ih (Nat.le_of_lt hBits) h
      have hClear : (feed feedback s b).getLsbD (w - 1) = false := by
        rw [hRest, List.getD_eq_default _ _ (by omega)]
      have hHead := eq_getLsbD_of_feed (by omega) hTop hClear
      cases i with
      | zero => exact hHead.symm
      | succ i =>
          have hMove := feed_self feedback s i
          rw [← hHead, hRest] at hMove
          exact hMove.symm

/-- The bits that empty a register are its own. -/
theorem feedAll_eq_zero_iff {feedback s : BitVec w} {bits : List Bool}
    (hTop : feedback.getLsbD (w - 1) = true) (hLen : bits.length ≤ w) :
    feedAll feedback s bits = 0 ↔ ∀ i, s.getLsbD i = bits.getD i false :=
  ⟨getLsbD_of_feedAll_eq_zero hTop hLen, feedAll_self feedback⟩

theorem zipWith_xor_self (bits : List Bool) :
    List.zipWith xor bits bits = List.replicate bits.length false := by
  induction bits with
  | nil => rfl
  | cons b bits ih =>
      rw [List.zipWith_cons_cons, ih, Bool.xor_self]
      rfl

/-- A word can be put on the register before it moves, or fed in bit by bit. -/
theorem iterate_shift_xor (feedback s : BitVec w) {x : BitVec w} {bits : List Bool}
    (h : ∀ i, x.getLsbD i = bits.getD i false) :
    (shift feedback)^[bits.length] (s ^^^ x) = feedAll feedback s bits := by
  have hZeros : ∀ b ∈ List.replicate bits.length false, b = false :=
    fun _ hb => List.eq_of_mem_replicate hb
  have hMoved := feedAll_zeros feedback (s ^^^ x) hZeros
  have hSum := feedAll_xor feedback (Eq.refl bits.length) s x
  have hSelf := zipWith_xor_self bits
  rw [List.length_replicate] at hMoved
  rw [← hMoved, ← hSelf, hSum, feedAll_self feedback h]
  exact BitVec.xor_zero

/-! ### Bursts -/

/-- A register that zeros empty was empty. -/
theorem eq_zero_of_iterate_shift {feedback s : BitVec w} (hw : 0 < w)
    (hTop : feedback.getLsbD (w - 1) = true) {n : Nat} (h : (shift feedback)^[n] s = 0) :
    s = 0 := by
  induction n generalizing s with
  | zero => exact h
  | succ n ih =>
      have hFed : feedAll feedback s [false] = 0 := by
        rw [feedAll_cons, feed_false]
        exact ih h
      have hOne : [false].length ≤ w := hw
      have hBits := getLsbD_of_feedAll_eq_zero hTop hOne hFed
      refine BitVec.eq_of_getLsbD_eq fun i _ => ?_
      rw [hBits i]
      cases i <;> simp

/-- Ones that all lie within the width of the register leave it nonzero. -/
theorem eq_false_of_feedAll_eq_zero {feedback : BitVec w} (hw : 0 < w)
    (hTop : feedback.getLsbD (w - 1) = true) {bits : List Bool} {start : Nat}
    (hBurst : ∀ i, bits[i]? = some true → start ≤ i ∧ i < start + w)
    (h : feedAll feedback 0 bits = 0) : ∀ b ∈ bits, b = false := by
  have hOutside : ∀ i (hi : i < bits.length), ¬(start ≤ i ∧ i < start + w) → bits[i] = false := by
    intro i hi hNot
    by_contra hne
    have hTrue := Bool.of_not_eq_false hne
    exact hNot (hBurst i (by rw [List.getElem?_eq_getElem hi, hTrue]))
  have hBefore : ∀ b ∈ bits.take start, b = false := by
    intro b hb
    obtain ⟨i, hi, rfl⟩ := List.mem_iff_getElem.mp hb
    rw [List.length_take] at hi
    rw [List.getElem_take]
    exact hOutside i (by omega) (by omega)
  have hAfter : ∀ b ∈ (bits.drop start).drop w, b = false := by
    intro b hb
    obtain ⟨i, hi, rfl⟩ := List.mem_iff_getElem.mp hb
    rw [List.length_drop, List.length_drop] at hi
    rw [List.getElem_drop, List.getElem_drop]
    exact hOutside _ (by omega) (by omega)
  have hCut : bits = bits.take start ++ ((bits.drop start).take w ++ (bits.drop start).drop w) := by
    rw [List.take_append_drop, List.take_append_drop]
  have hWindow : ∀ b ∈ (bits.drop start).take w, b = false := by
    rw [hCut, feedAll_append, feedAll_zero_zeros feedback hBefore, feedAll_append,
      feedAll_zeros feedback _ hAfter] at h
    have hEmpty := eq_zero_of_iterate_shift hw hTop h
    have hBits := getLsbD_of_feedAll_eq_zero hTop (List.length_take_le ..) hEmpty
    intro b hb
    obtain ⟨i, hi, rfl⟩ := List.mem_iff_getElem.mp hb
    have hBit := hBits i
    rw [List.getD_eq_getElem _ _ hi] at hBit
    rw [← hBit]
    exact BitVec.getLsbD_zero
  intro b hb
  rw [hCut, List.mem_append, List.mem_append] at hb
  rcases hb with hb | hb | hb
  · exact hBefore b hb
  · exact hWindow b hb
  · exact hAfter b hb

end ShiftRegister
