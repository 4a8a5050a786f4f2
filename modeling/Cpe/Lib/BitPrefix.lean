import Mathlib.Data.BitVec
import Mathlib.Tactic.Common

/-! # Prefixes of fixed-width addresses

A prefix fixes the top `len` bits of an address. `Prefix` carries the proof
that its network has no host bits, so the masked comparison `a &&& mask = net`
is exactly membership. Two prefixes of one address nest by length. -/
namespace Cpe.Lib.BitPrefix

variable {w : Nat}

/-- The netmask of `n` leading ones. -/
def mask (w n : Nat) : BitVec w := BitVec.allOnes w <<< (w - n)

/-- A network without host bits. -/
structure Prefix (w : Nat) where
  net : BitVec w
  len : Nat
  len_le : len ≤ w
  canonical : net &&& mask w len = net
deriving DecidableEq

def Prefix.Contains (p : Prefix w) (a : BitVec w) : Prop := a &&& mask w p.len = p.net

instance (p : Prefix w) (a : BitVec w) : Decidable (p.Contains a) :=
  inferInstanceAs (Decidable (_ = _))

/-- The prefix `net/n`, when `net` has no host bits. -/
def Prefix.of? (net : BitVec w) (n : Nat) : Option (Prefix w) :=
  if h : n ≤ w ∧ net &&& mask w n = net then some ⟨net, n, h.1, h.2⟩ else none

theorem getLsbD_mask (n i : Nat) : (mask w n).getLsbD i = (decide (i < w) && decide (w - n ≤ i)) := by
  unfold mask
  rw [BitVec.getLsbD_shiftLeft, BitVec.getLsbD_allOnes]
  by_cases h : i < w
  · by_cases h' : w - n ≤ i
    · have hk : i - (w - n) < w := by omega
      simp [h, h', hk]
    · have hk : i < w - n := by omega
      simp [h, h', hk]
  · simp [h]

theorem mask_and_mask {n m : Nat} (h : n ≤ m) : mask w m &&& mask w n = mask w n := by
  apply BitVec.eq_of_getLsbD_eq
  intro i hi
  rw [BitVec.getLsbD_and, getLsbD_mask, getLsbD_mask]
  by_cases h' : w - n ≤ i
  · have hm : w - m ≤ i := by omega
    simp [hm]
  · simp [h']

/-- Masking with a longer mask first changes nothing. -/
theorem and_mask_and_mask {n m : Nat} (h : n ≤ m) (a : BitVec w) :
    a &&& mask w m &&& mask w n = a &&& mask w n := by
  rw [BitVec.and_assoc, mask_and_mask h]

theorem mask_full : mask w w = BitVec.allOnes w := by
  unfold mask
  rw [Nat.sub_self, BitVec.shiftLeft_zero]

/-- One address, as a prefix of full length. -/
def Prefix.host (a : BitVec w) : Prefix w :=
  ⟨a, w, Nat.le_refl w, by rw [mask_full, BitVec.and_allOnes]⟩

theorem host_contains (a b : BitVec w) : (Prefix.host a).Contains b ↔ b = a := by
  unfold Prefix.Contains Prefix.host
  rw [mask_full, BitVec.and_allOnes]

/-- A masked comparison with any network, host bits or not, is membership in
the prefix it denotes: a network with host bits matches nothing. -/
theorem and_mask_eq_iff {n : Nat} (hn : n ≤ w) (a net : BitVec w) :
    a &&& mask w n = net ↔ ∃ p, Prefix.of? net n = some p ∧ p.Contains a := by
  constructor
  · intro h
    have hc : net &&& mask w n = net := by rw [← h, and_mask_and_mask (Nat.le_refl n)]
    exact ⟨⟨net, n, hn, hc⟩, by rw [Prefix.of?, dif_pos ⟨hn, hc⟩], h⟩
  · rintro ⟨p, hp, ha⟩
    unfold Prefix.of? at hp
    split at hp
    · cases hp
      exact ha
    · cases hp

/-- No bits outside a mask: two spellings. -/
theorem and_not_eq_zero_iff (a m : BitVec w) : a &&& ~~~m = 0#w ↔ a &&& m = a := by
  constructor
  · intro h
    apply BitVec.eq_of_getLsbD_eq
    intro i hi
    have hb := congrArg (fun x => x.getLsbD i) h
    simp only [BitVec.getLsbD_and, BitVec.getLsbD_not, hi, decide_true, Bool.true_and,
      BitVec.getLsbD_zero, Bool.and_eq_false_iff, Bool.not_eq_false'] at hb
    rw [BitVec.getLsbD_and]
    rcases hb with hb | hb
    · rw [hb, Bool.false_and]
    · rw [hb, Bool.and_true]
  · intro h
    rw [← h, BitVec.and_assoc, BitVec.and_not_self]
    exact BitVec.and_zero

@[simp] theorem of?_self (p : Prefix w) : Prefix.of? p.net p.len = some p := by
  unfold Prefix.of?
  rw [dif_pos ⟨p.len_le, p.canonical⟩]

/-- Of two prefixes of one address, the shorter contains the longer's network. -/
theorem Prefix.Contains.net_of_le {p q : Prefix w} {a : BitVec w} (hp : p.Contains a)
    (hq : q.Contains a) (h : p.len ≤ q.len) : p.Contains q.net := by
  unfold Prefix.Contains at *
  rw [← hq, and_mask_and_mask h, hp]

theorem mask_zero : mask w 0 = 0#w := by
  unfold mask
  rw [Nat.sub_zero]
  exact BitVec.shiftLeft_eq_zero (Nat.le_refl w)

/-- A longer mask has its highest bit set. -/
theorem mask_eq_zero_iff {n : Nat} (hn : n ≤ w) : mask w n = 0#w ↔ n = 0 := by
  constructor
  · intro h
    by_contra hpos
    have hbit := getLsbD_mask (w := w) n (w - n)
    rw [h, BitVec.getLsbD_zero] at hbit
    have hlt : w - n < w := by omega
    simp [hlt] at hbit
  · intro h
    rw [h, mask_zero]

/-- The prefix of length 0 is the one that contains every address. -/
theorem Prefix.contains_all_iff (p : Prefix w) : (∀ a, p.Contains a) ↔ p.len = 0 := by
  constructor
  · intro h
    have hzero : 0#w &&& mask w p.len = p.net := h (0#w)
    have hones : BitVec.allOnes w &&& mask w p.len = p.net := h (BitVec.allOnes w)
    rw [BitVec.zero_and] at hzero
    rw [BitVec.allOnes_and, ← hzero] at hones
    exact (mask_eq_zero_iff p.len_le).mp hones
  · intro h a
    have hnet := p.canonical
    rw [h, mask_zero, BitVec.and_zero] at hnet
    unfold Prefix.Contains
    rw [h, mask_zero, BitVec.and_zero, hnet]

/-! ## Prefixes as intervals -/

/-- Masking rounds an address down to a multiple of the size of the prefix. -/
theorem toNat_and_mask (a : BitVec w) (n : Nat) :
    (a &&& mask w n).toNat = a.toNat / 2 ^ (w - n) * 2 ^ (w - n) := by
  have hshift : a &&& mask w n = (a >>> (w - n)) <<< (w - n) := by
    apply BitVec.eq_of_getLsbD_eq
    intro i hi
    rw [BitVec.getLsbD_and, getLsbD_mask, BitVec.getLsbD_shiftLeft, BitVec.getLsbD_ushiftRight]
    by_cases h : w - n ≤ i
    · simp [h, hi, Nat.not_lt.mpr h, Nat.add_sub_cancel' h]
    · simp [h, Nat.lt_of_not_le h]
  have hle : a.toNat / 2 ^ (w - n) * 2 ^ (w - n) < 2 ^ w :=
    Nat.lt_of_le_of_lt (Nat.div_mul_le_self _ _) a.isLt
  rw [hshift, BitVec.toNat_shiftLeft, BitVec.toNat_ushiftRight, Nat.shiftRight_eq_div_pow,
    Nat.shiftLeft_eq, Nat.mod_eq_of_lt hle]

/-- **A prefix is the interval** of the `2 ^ (w - len)` addresses from its
network on. -/
theorem Prefix.contains_iff_interval (p : Prefix w) (a : BitVec w) :
    p.Contains a ↔
      p.net.toNat ≤ a.toNat ∧ a.toNat ≤ p.net.toNat + 2 ^ (w - p.len) - 1 := by
  have hsize : 0 < 2 ^ (w - p.len) := Nat.pow_pos (by decide)
  have hnet : p.net.toNat / 2 ^ (w - p.len) * 2 ^ (w - p.len) = p.net.toNat := by
    rw [← toNat_and_mask, p.canonical]
  have hdown := toNat_and_mask a p.len
  have hmod := Nat.div_add_mod a.toNat (2 ^ (w - p.len))
  have hlt := Nat.mod_lt a.toNat hsize
  rw [Nat.mul_comm] at hmod
  constructor
  · intro h
    have heq : a.toNat / 2 ^ (w - p.len) * 2 ^ (w - p.len) = p.net.toNat := by
      rw [← hdown, h]
    omega
  · intro h
    -- both are multiples of the size, less than one size apart
    have hq : a.toNat / 2 ^ (w - p.len) = p.net.toNat / 2 ^ (w - p.len) := by
      apply Nat.div_eq_of_lt_le
      · omega
      · rw [Nat.succ_mul]
        omega
    apply BitVec.eq_of_toNat_eq
    rw [hdown, hq, hnet]

end Cpe.Lib.BitPrefix
