import Cpe.Lib.Number

/-! # `inet_addr`

One to four numbers between dots, the last one filling the bytes that are
left, in network order on a little-endian host. Anything but white space
behind the address makes it invalid. -/
namespace Cpe.Lib.InetAddr
open Cpe.Lib.ByteOrder Cpe.Lib.CString Cpe.Lib.Number

/-- The network-order word of the leading address bytes. -/
def wordOf (pp : Bytes) : U32 := le32 (pp.getD 0 0) (pp.getD 1 0) (pp.getD 2 0) (pp.getD 3 0)

/-- The numbers from `s` on, behind the address bytes `pp`, where `k` more dots
may follow. -/
def inetParts : Nat → Bytes → Bytes → Option U32
  | k, pp, s =>
    if ¬ s.head?.any (fun c => decide (48 ≤ c ∧ c ≤ 57)) then none
    else
      let (val, rest) := strtoul 0 s
      if val > 0xffffffff then none
      else match rest with
        | 46 :: tail =>
          match k with
          | 0 => none
          | k + 1 => if val > 0xff then none else inetParts k (pp ++ [BitVec.ofNat 8 val]) tail
        | _ =>
          if rest.head?.any (fun c => !isSpace c) then none
          else if val ≥ 2 ^ (8 * (4 - pp.length)) then none
          else some (wordOf pp ||| htonl (BitVec.ofNat 32 val))

def INADDR_NONE : U32 := 0xffffffff

def inetAddr (s : Bytes) : U32 := (inetParts 3 [] (cstr s)).getD INADDR_NONE

/-- A dotted quad. -/
def quad (a b c d : Nat) : Bytes := [46].intercalate [decimal a, decimal b, decimal c, decimal d]

theorem quad_eq (a b c d : Nat) :
    quad a b c d = decimal a ++ 46 :: (decimal b ++ 46 :: (decimal c ++ 46 :: decimal d)) := by
  simp [quad, List.intercalate]

theorem length_quad_le {a b c d : Nat} (ha : a < 256) (hb : b < 256) (hc : c < 256)
    (hd : d < 256) : (quad a b c d).length ≤ 15 := by
  have hla := length_decimal_le (show a < 1000 by omega)
  have hlb := length_decimal_le (show b < 1000 by omega)
  have hlc := length_decimal_le (show c < 1000 by omega)
  have hld := length_decimal_le (show d < 1000 by omega)
  rw [quad_eq]
  simp only [List.length_append, List.length_cons]
  omega

theorem head_decimal (n : Nat) (rest : Bytes) :
    (decimal n ++ rest).head?.any (fun c => decide (48 ≤ c ∧ c ≤ 57)) = true := by
  have hd := decimal_digits n
  obtain ⟨b, bs, hbs⟩ := List.exists_cons_of_ne_nil hd.nonempty
  have hb := hd.digit b (by rw [hbs]; exact List.mem_cons_self)
  rw [hbs]
  simpa using hb

/-- A number and a dot: one more address byte. -/
theorem inetParts_dot {k : Nat} {pp tail : Bytes} {n : Nat} (hn : n < 256) :
    inetParts (k + 1) pp (decimal n ++ 46 :: tail) =
      inetParts k (pp ++ [BitVec.ofNat 8 n]) tail := by
  rw [inetParts, head_decimal, strtoul_decimal n _ (.inr ⟨tail, rfl⟩)]
  simp [show ¬ n > 0xffffffff by omega, show ¬ n > 0xff by omega]

/-- The last number ends the address. -/
theorem inetParts_end {k : Nat} {pp : Bytes} {n : Nat} (hn : n < 256) (hp : pp.length ≤ 3) :
    inetParts k pp (decimal n) = some (wordOf pp ||| htonl (BitVec.ofNat 32 n)) := by
  have hhead := head_decimal n []
  have hnum := strtoul_decimal n [] (.inl rfl)
  rw [List.append_nil] at hhead hnum
  have hmax : n < 2 ^ (8 * (4 - pp.length)) := calc
    n < 2 ^ 8 := hn
    _ ≤ 2 ^ (8 * (4 - pp.length)) := Nat.pow_le_pow_right (by decide) (by omega)
  rw [inetParts, hhead, hnum]
  simp [show ¬ n > 0xffffffff by omega, show ¬ 2 ^ (8 * (4 - pp.length)) ≤ n by omega]

theorem byte_ofNat {n : Nat} (hn : n < 256) (i : Nat) :
    byte (BitVec.ofNat 32 n) i = if i = 0 then BitVec.ofNat 8 n else 0#8 := by
  apply BitVec.eq_of_toNat_eq
  have hn' : n % 2 ^ 32 = n := Nat.mod_eq_of_lt (by omega)
  rw [byte, BitVec.extractLsb'_toNat, BitVec.toNat_ofNat, hn', Nat.shiftRight_eq_div_pow]
  split
  · rename_i hi
    subst hi
    simp
  · rename_i hi
    have : n < 2 ^ (8 * i) := calc
      n < 2 ^ 8 := hn
      _ ≤ 2 ^ (8 * i) := Nat.pow_le_pow_right (by decide) (by omega)
    rw [Nat.div_eq_of_lt this]
    rfl

theorem wordOf_or (a b c : Byte) {n : Nat} (hn : n < 256) :
    wordOf [a, b, c] ||| htonl (BitVec.ofNat 32 n) = le32 a b c (BitVec.ofNat 8 n) := by
  simp [htonl, byte_ofNat hn, wordOf, le32_or]

/-- **A dotted quad is read as its four bytes**, the first one first in memory. -/
theorem inetAddr_quad {a b c d : Nat} (ha : a < 256) (hb : b < 256) (hc : c < 256)
    (hd : d < 256) :
    inetAddr (quad a b c d) =
      le32 (BitVec.ofNat 8 a) (BitVec.ofNat 8 b) (BitVec.ofNat 8 c) (BitVec.ofNat 8 d) := by
  have hnul : 0#8 ∉ quad a b c d := by
    rw [quad_eq]
    simp [(decimal_digits a).no_nul, (decimal_digits b).no_nul, (decimal_digits c).no_nul,
      (decimal_digits d).no_nul]
  rw [inetAddr, cstr_eq_self hnul, quad_eq, inetParts_dot ha, inetParts_dot hb, inetParts_dot hc,
    inetParts_end hd (by simp)]
  exact wordOf_or _ _ _ hd

end Cpe.Lib.InetAddr
