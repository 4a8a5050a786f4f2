import Mathlib.Data.BitVec
import Mathlib.Tactic.Common

/-! # Reflected cyclic redundancy checks

The register is divided by the polynomial towards its least significant bit,
one message bit at a time. Division is linear, so the bits of a chunk can be
added to the register at once, and the low end of the register can be divided
by a table while the rest of it only moves down. -/
namespace Cpe.Lib.Crc

variable {w : Nat} (poly : BitVec w)

/-- One division step: the register moves down, and the polynomial is taken
off when a one falls out. -/
def divide (r : BitVec w) : BitVec w := (r >>> 1) ^^^ if r.getLsbD 0 then poly else 0

def divides : Nat → BitVec w → BitVec w
  | 0, r => r
  | n + 1, r => divides n (divide poly r)

/-- A bit at the low end of a register. -/
def lowBit (b : Bool) : BitVec w := if b then 1 else 0

/-- A message bit enters the register and is divided. -/
def feed (r : BitVec w) (b : Bool) : BitVec w := divide poly (r ^^^ lowBit b)

/-- The register behind a message, one bit at a time. -/
def remainder (r : BitVec w) (bits : List Bool) : BitVec w := bits.foldl (feed poly) r

/-- The bits of a word, the least significant first. -/
def bitsOf {n : Nat} (x : BitVec n) : List Bool := (List.range n).map x.getLsbD

/-- Bits as a register, the first one least significant. -/
def packed : List Bool → BitVec w
  | [] => 0
  | b :: bits => lowBit b ^^^ packed bits <<< 1

/-- The low `n` bits of a register. -/
def low (n : Nat) (r : BitVec w) : BitVec w := (r.setWidth n).setWidth w

/-! ## Division is linear -/

theorem divide_xor (r s : BitVec w) : divide poly (r ^^^ s) = divide poly r ^^^ divide poly s := by
  unfold divide
  apply BitVec.eq_of_getLsbD_eq
  intro i _
  simp only [BitVec.ushiftRight_xor_distrib, BitVec.getLsbD_xor]
  cases r.getLsbD 0 <;> cases s.getLsbD 0 <;> simp <;> grind

theorem divides_xor (n : Nat) (r s : BitVec w) :
    divides poly n (r ^^^ s) = divides poly n r ^^^ divides poly n s := by
  induction n generalizing r s with
  | zero => rfl
  | succ n ih => rw [divides, divides, divides, divide_xor, ih]

/-- A register whose low bits are clear only moves down. -/
theorem divides_of_clear (n : Nat) {r : BitVec w} (h : ∀ i, i < n → r.getLsbD i = false) :
    divides poly n r = r >>> n := by
  induction n generalizing r with
  | zero => exact (BitVec.ushiftRight_zero r).symm
  | succ n ih =>
    have hstep : divide poly r = r >>> 1 := by
      rw [divide, h 0 (Nat.succ_pos n), if_neg (by decide)]
      exact BitVec.xor_zero
    have hclear : ∀ i, i < n → (r >>> 1).getLsbD i = false := by
      intro i hi
      rw [BitVec.getLsbD_ushiftRight]
      exact h (1 + i) (by omega)
    rw [divides, hstep, ih hclear, ← BitVec.shiftRight_add, Nat.add_comm]

/-! ## Chunks of a message -/

theorem getLsbD_lowBit (b : Bool) (i : Nat) :
    (lowBit b : BitVec w).getLsbD i = (decide (i < w) && decide (i = 0) && b) := by
  unfold lowBit
  cases b with
  | false => simp
  | true =>
    simp only [if_true, Bool.and_true]
    by_cases hi : i = 0
    · subst hi
      simp [BitVec.getLsbD_one]
    · simp [BitVec.getLsbD_one, hi]

theorem getLsbD_packed (bits : List Bool) (i : Nat) :
    (packed bits : BitVec w).getLsbD i = (decide (i < w) && bits.getD i false) := by
  induction bits generalizing i with
  | nil => simp [packed]
  | cons b bits ih =>
    rw [packed, BitVec.getLsbD_xor, getLsbD_lowBit, BitVec.getLsbD_shiftLeft]
    cases i with
    | zero => simp
    | succ i =>
      rw [Nat.add_sub_cancel, ih]
      by_cases hi : i + 1 < w
      · have hi' : i < w := by omega
        simp [hi, hi']
      · simp [hi]

/-- **A chunk can be added at once**: its bits one after the other are as many
divisions of the register with the chunk in it. -/
theorem remainder_eq_divides (r : BitVec w) (bits : List Bool) (h : bits.length ≤ w) :
    remainder poly r bits = divides poly bits.length (r ^^^ packed bits) := by
  induction bits generalizing r with
  | nil => exact (BitVec.xor_zero).symm
  | cons b bits ih =>
    have hlen : bits.length + 1 ≤ w := h
    -- the bits behind the first one have room to move up, and the step moves them back
    have hback : divide poly (packed bits <<< 1) = packed bits := by
      apply BitVec.eq_of_getLsbD_eq
      intro i hi
      rw [divide, BitVec.getLsbD_shiftLeft]
      simp only [Nat.lt_one_iff, decide_true, Bool.not_true, Bool.and_false, Bool.false_and]
      rw [if_neg (by decide), BitVec.getLsbD_xor, BitVec.getLsbD_ushiftRight,
        BitVec.getLsbD_shiftLeft, getLsbD_packed, getLsbD_packed, Nat.add_sub_cancel_left]
      by_cases htop : 1 + i < w
      · simp [htop, hi]
      · have hout : bits.length ≤ i := by omega
        simp [htop, hout]
    have hfirst : divide poly (r ^^^ packed (b :: bits)) = feed poly r b ^^^ packed bits := by
      rw [packed, ← BitVec.xor_assoc, divide_xor, hback, feed]
    rw [List.length_cons, divides, hfirst, ← ih (feed poly r b) (by omega)]
    rfl

theorem length_bitsOf {n : Nat} (x : BitVec n) : (bitsOf x).length = n := by
  rw [bitsOf, List.length_map, List.length_range]

theorem packed_bitsOf {n : Nat} (x : BitVec n) : (packed (bitsOf x) : BitVec w) = x.setWidth w := by
  apply BitVec.eq_of_getLsbD_eq
  intro i hi
  rw [getLsbD_packed, BitVec.getLsbD_setWidth]
  by_cases hn : i < n
  · simp [bitsOf, hi, hn]
  · simp [bitsOf, hi, Nat.le_of_not_lt hn]

theorem bitsOf_injective {n : Nat} : Function.Injective (bitsOf (n := n)) := by
  intro x y h
  have hpacked : (packed (bitsOf x) : BitVec n) = packed (bitsOf y) := by rw [h]
  rwa [packed_bitsOf, packed_bitsOf, BitVec.setWidth_eq, BitVec.setWidth_eq] at hpacked

/-! ## Tables -/

theorem getLsbD_low (n i : Nat) (r : BitVec w) :
    (low n r).getLsbD i = (decide (i < n) && r.getLsbD i) := by
  rw [low, BitVec.getLsbD_setWidth, BitVec.getLsbD_setWidth]
  by_cases hi : i < w
  · simp [hi]
  · simp [hi, BitVec.getLsbD_of_ge r i (by omega)]

/-- **The low end by a table**: `n` divisions of a register are those of its low
`n` bits, and the rest of it moved down. -/
theorem divides_eq_low (n : Nat) (r : BitVec w) :
    divides poly n r = divides poly n (low n r) ^^^ (r >>> n) := by
  have hsplit : r = low n r ^^^ (r ^^^ low n r) := by
    rw [BitVec.xor_comm r, ← BitVec.xor_assoc, BitVec.xor_self, BitVec.zero_xor]
  have hclear : ∀ i, i < n → (r ^^^ low n r).getLsbD i = false := by
    intro i hi
    rw [BitVec.getLsbD_xor, getLsbD_low]
    simp [hi]
  have hrest : (r ^^^ low n r) >>> n = r >>> n := by
    apply BitVec.eq_of_getLsbD_eq
    intro i _
    have hout : ¬ n + i < n := by omega
    rw [BitVec.getLsbD_ushiftRight, BitVec.getLsbD_ushiftRight, BitVec.getLsbD_xor, getLsbD_low]
    simp [hout]
  conv_lhs => rw [hsplit]
  rw [divides_xor, divides_of_clear poly n hclear, hrest]

/-- A word of the message, by the table of its width. -/
theorem remainder_bitsOf {n : Nat} (hn : n ≤ w) (r : BitVec w) (x : BitVec n) :
    remainder poly r (bitsOf x) =
      divides poly n (low n (r ^^^ x.setWidth w)) ^^^ (r >>> n) := by
  have hhigh : (x.setWidth w) >>> n = 0#w := by
    apply BitVec.eq_of_getLsbD_eq
    intro i _
    rw [BitVec.getLsbD_ushiftRight, BitVec.getLsbD_setWidth, BitVec.getLsbD_of_ge x _ (by omega)]
    simp
  have hlen : (bitsOf x).length ≤ w := (length_bitsOf x).trans_le hn
  rw [remainder_eq_divides poly r (bitsOf x) hlen, length_bitsOf, packed_bitsOf, divides_eq_low,
    BitVec.ushiftRight_xor_distrib, hhigh, BitVec.xor_zero]

/-! ## Bursts

When the polynomial has its highest bit, a division can be undone: a one fell
out exactly when the highest bit of the result is set. Two messages that differ
only in a window no wider than the register then leave different remainders. -/

/-- The places where the two lists differ lie in a window of `n` places. -/
def DifferWithin {α : Type*} (n : Nat) (xs ys : List α) : Prop :=
  ∃ k, ∀ i, xs[i]? ≠ ys[i]? → k ≤ i ∧ i < k + n

section Bursts
variable {poly}

theorem divide_eq_zero (htop : poly.msb = true) {r : BitVec w} (h : divide poly r = 0) :
    r = 0 := by
  rw [divide] at h
  cases hlow : r.getLsbD 0 with
  | true =>
    -- the highest bit of the result is the polynomial's
    have hmsb := congrArg BitVec.msb h
    rw [hlow, if_pos rfl, BitVec.msb_xor, htop, BitVec.msb_ushiftRight] at hmsb
    simp at hmsb
  | false =>
    rw [hlow, if_neg (by decide)] at h
    have hshift : r >>> 1 = 0 := by simpa using h
    apply BitVec.eq_of_getLsbD_eq
    intro i _
    cases i with
    | zero => simpa using hlow
    | succ i =>
      have hbit := congrArg (fun x => x.getLsbD i) hshift
      simpa [Nat.add_comm] using hbit

theorem divide_injective (htop : poly.msb = true) : Function.Injective (divide poly) := by
  intro r s h
  have hzero : divide poly (r ^^^ s) = 0 := by
    rw [divide_xor, h, BitVec.xor_self]
    rfl
  exact BitVec.xor_eq_zero_iff.mp (divide_eq_zero htop hzero)

theorem divides_injective (htop : poly.msb = true) (n : Nat) :
    Function.Injective (divides poly n) := by
  induction n with
  | zero => exact Function.injective_id
  | succ n ih => exact ih.comp (divide_injective htop)

/-- Behind the same bits, registers that differed still differ. -/
theorem remainder_injective (htop : poly.msb = true) (bits : List Bool) :
    Function.Injective fun r => remainder poly r bits := by
  induction bits with
  | nil => exact Function.injective_id
  | cons b bits ih =>
    have hfeed : Function.Injective fun r : BitVec w => feed poly r b := by
      intro r s h
      exact BitVec.xor_left_inj _ |>.mp (divide_injective htop h)
    exact ih.comp hfeed

theorem packed_injective {us vs : List Bool} (hlen : us.length = vs.length)
    (hw : us.length ≤ w) (h : (packed us : BitVec w) = packed vs) : us = vs := by
  apply List.ext_getElem hlen
  intro i hu hv
  have hi : i < w := by omega
  have hbit : (packed us : BitVec w).getLsbD i = (packed vs : BitVec w).getLsbD i := by rw [h]
  rw [getLsbD_packed, getLsbD_packed] at hbit
  simpa [hi, hu, hv] using hbit

/-- **A burst is seen**: messages that differ in a window no wider than the
register leave different remainders. -/
theorem remainder_ne_of_differWithin (htop : poly.msb = true) (r : BitVec w) {as bs : List Bool}
    (hlen : as.length = bs.length) (hne : as ≠ bs) (hwin : DifferWithin w as bs) :
    remainder poly r as ≠ remainder poly r bs := by
  obtain ⟨k, hk⟩ := hwin
  have hfront : as.take k = bs.take k := by
    apply List.ext_getElem?
    intro i
    rw [List.getElem?_take, List.getElem?_take]
    by_cases hi : i < k
    · have heq : as[i]? = bs[i]? := by
        by_contra hd
        exact absurd (hk i hd).1 (by omega)
      rw [if_pos hi, if_pos hi, heq]
    · rw [if_neg hi, if_neg hi]
  have hback : (as.drop k).drop w = (bs.drop k).drop w := by
    apply List.ext_getElem?
    intro i
    rw [List.drop_drop, List.drop_drop, List.getElem?_drop, List.getElem?_drop]
    by_contra hd
    exact absurd (hk _ hd).2 (by omega)
  have hsplit : ∀ xs : List Bool, remainder poly r xs =
      remainder poly (remainder poly (remainder poly r (xs.take k)) ((xs.drop k).take w))
        ((xs.drop k).drop w) := by
    intro xs
    conv_lhs => rw [← List.take_append_drop k xs, ← List.take_append_drop w (xs.drop k)]
    simp only [remainder, List.foldl_append]
  have hwidth : ∀ xs : List Bool, ((xs.drop k).take w).length ≤ w := fun xs =>
    List.length_take_le _ _
  have hmid : ((as.drop k).take w).length = ((bs.drop k).take w).length := by
    rw [List.length_take, List.length_take, List.length_drop, List.length_drop, hlen]
  intro heq
  rw [hsplit as, hsplit bs, hfront, hback] at heq
  have hwindow := remainder_injective htop _ heq
  rw [remainder_eq_divides _ _ _ (hwidth as), remainder_eq_divides _ _ _ (hwidth bs), hmid]
    at hwindow
  have hpacked := BitVec.xor_right_inj _ |>.mp (divides_injective htop _ hwindow)
  have hsame := packed_injective hmid (hwidth as) hpacked
  apply hne
  rw [← List.take_append_drop k as, ← List.take_append_drop k bs, hfront,
    ← List.take_append_drop w (as.drop k), ← List.take_append_drop w (bs.drop k), hsame, hback]

end Bursts

end Cpe.Lib.Crc
