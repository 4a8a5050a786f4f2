import Cpe.Lib.CString
import Mathlib.Tactic.IntervalCases

/-! # Numbers in texts

`strtoul` and `strtol` as the C library has them: a number is read up to the
first byte that is no digit of its base, base 0 takes the base from a `0` or
`0x` in front. `decimal` prints as `%d` does for a value that is not negative,
`hex2` prints a byte as `%02x` does, and reading the digits back gives the
value. -/
namespace Cpe.Lib.Number
open Cpe.Lib.ByteOrder Cpe.Lib.CString

def isSpace (b : Byte) : Bool := b = 32 || (9 ≤ b && b ≤ 13)

/-- The value of a digit or letter; 36, no digit of any base, for other bytes. -/
def digitVal (b : Byte) : Nat :=
  if 48 ≤ b ∧ b ≤ 57 then b.toNat - 48
  else if 97 ≤ b ∧ b ≤ 122 then b.toNat - 87
  else if 65 ≤ b ∧ b ≤ 90 then b.toNat - 55
  else 36

def ofDigits (base : Nat) (ds : List Nat) : Nat := ds.foldl (fun n d => n * base + d) 0

/-- The leading digits of `s` as a number, and what follows them. -/
def readDigits (base : Nat) (s : Bytes) : Nat × Bytes :=
  (ofDigits base ((s.takeWhile (digitVal · < base)).map digitVal),
    s.dropWhile (digitVal · < base))

/-- Is there a `0x` with a hexadecimal digit behind it? -/
def hexMarked (s : Bytes) : Bool :=
  match s with
  | z :: x :: d :: _ => z = 48 && (x = 120 || x = 88) && digitVal d < 16
  | _ => false

/-- `strtoul` after white space and sign, without its upper bound. -/
def strtoul (base : Nat) (s : Bytes) : Nat × Bytes :=
  if (base = 0 ∨ base = 16) ∧ hexMarked s then readDigits 16 (s.drop 2)
  else if base ≠ 0 then readDigits base s
  else if s.head? = some 48 then readDigits 8 s
  else readDigits 10 s

/-- A number behind an optional sign. -/
def signed (base : Nat) : Bytes → Int
  | 45 :: t => -(strtoul base t).1
  | 43 :: t => (strtoul base t).1
  | t => (strtoul base t).1

/-- `strtol` with a 64-bit `long`: a value out of range is the nearest bound. -/
def strtol (base : Nat) (s : Bytes) : Int :=
  max (-2 ^ 63) (min (signed base ((cstr s).dropWhile isSpace)) (2 ^ 63 - 1))

/-- `atoi` is `strtol` in base 10, cut to an `int`. -/
def atoi (s : Bytes) : U32 := BitVec.ofInt 32 (strtol 10 s)

/-- `%d` of a value that is not negative. -/
def decimal (n : Nat) : Bytes := (Nat.toDigits 10 n).map fun c => BitVec.ofNat 8 c.toNat

theorem digitChar_byte {d : Nat} (h : d < 10) :
    BitVec.ofNat 8 (Nat.digitChar d).toNat = BitVec.ofNat 8 (48 + d) := by
  interval_cases d <;> rfl

theorem digitVal_byte {d : Nat} (h : d < 10) : digitVal (BitVec.ofNat 8 (48 + d)) = d := by
  interval_cases d <;> rfl

theorem decimal_of_lt {n : Nat} (h : n < 10) : decimal n = [BitVec.ofNat 8 (48 + n)] := by
  rw [decimal, Nat.toDigits_of_lt_base h, List.map_singleton, digitChar_byte h]

/-- The last digit comes off the end. -/
theorem decimal_of_le {n : Nat} (h : 10 ≤ n) :
    decimal n = decimal (n / 10) ++ [BitVec.ofNat 8 (48 + n % 10)] := by
  rw [decimal, Nat.toDigits_of_base_le (by decide) h, List.map_append, List.map_singleton,
    digitChar_byte (Nat.mod_lt n (by decide)), decimal]

theorem ofDigits_append (base : Nat) (ds : List Nat) (d : Nat) :
    ofDigits base (ds ++ [d]) = ofDigits base ds * base + d := by
  rw [ofDigits, List.foldl_append]
  rfl

/-- The digits of a printed number: all decimal, of that value, and without a
leading zero unless the number is zero. -/
structure Digits (n : Nat) (s : Bytes) : Prop where
  nonempty : s ≠ []
  digit : ∀ b ∈ s, 48 ≤ b ∧ b ≤ 57
  value : ofDigits 10 (s.map digitVal) = n
  lead : s.head? = some 48 → s = [48]

theorem digit_byte_range {d : Nat} (h : d < 10) :
    48 ≤ BitVec.ofNat 8 (48 + d) ∧ BitVec.ofNat 8 (48 + d) ≤ 57 := by
  interval_cases d <;> decide

theorem decimal_digits (n : Nat) : Digits n (decimal n) := by
  induction n using Nat.strongRecOn with
  | ind n ih =>
    by_cases h : n < 10
    · rw [decimal_of_lt h]
      refine ⟨by simp, ?_, ?_, by simp⟩
      · intro b hb
        rw [List.mem_singleton.mp hb]
        exact digit_byte_range h
      · rw [List.map_singleton, digitVal_byte h]
        simp [ofDigits]
    · have hq := ih (n / 10) (by omega)
      have hd : n % 10 < 10 := Nat.mod_lt n (by decide)
      rw [decimal_of_le (by omega)]
      refine ⟨by simp, ?_, ?_, ?_⟩
      · intro b hb
        rcases List.mem_append.mp hb with hb | hb
        · exact hq.digit b hb
        · rw [List.mem_singleton.mp hb]
          exact digit_byte_range hd
      · rw [List.map_append, List.map_singleton, ofDigits_append, hq.value, digitVal_byte hd]
        omega
      · intro hl
        -- the quotient is not zero, so its digits do not begin with one
        rw [List.head?_append_of_ne_nil _ hq.nonempty] at hl
        have hz := hq.value
        rw [hq.lead hl] at hz
        have : n / 10 = 0 := by rw [← hz]; rfl
        omega

/-- Three digits for the values below a thousand. -/
theorem length_decimal_le {n : Nat} (h : n < 1000) : (decimal n).length ≤ 3 := by
  rw [decimal, List.length_map, Nat.length_toDigits_le_iff (by decide) (by decide)]
  exact h

theorem Digits.digitVal_lt {n : Nat} {s : Bytes} (h : Digits n s) {b : Byte} (hb : b ∈ s) :
    digitVal b < 10 := by
  have hd := h.digit b hb
  rw [digitVal, if_pos hd]
  have hle : b.toNat ≤ 57 := BitVec.le_def.mp hd.2
  omega

/-- A byte that is no decimal digit ends a number. -/
theorem Digits.readDigits {n : Nat} {s : Bytes} (h : Digits n s) (rest : Bytes)
    (hrest : ∀ b ∈ rest.head?, ¬ digitVal b < 10) : readDigits 10 (s ++ rest) = (n, rest) := by
  have htake : (s ++ rest).takeWhile (digitVal · < 10) = s := by
    rw [List.takeWhile_append_of_pos (fun b hb => by simpa using h.digitVal_lt hb)]
    cases rest with
    | nil => simp
    | cons b rest => simp [hrest b rfl]
  have hdrop : (s ++ rest).dropWhile (digitVal · < 10) = rest := by
    rw [List.dropWhile_append_of_pos (fun b hb => by simpa using h.digitVal_lt hb)]
    cases rest with
    | nil => rfl
    | cons b rest => simp [hrest b rfl]
  rw [Number.readDigits, htake, hdrop, h.value]

theorem Digits.no_nul {n : Nat} {s : Bytes} (h : Digits n s) : 0#8 ∉ s := by
  intro h0
  have := (h.digit 0 h0).1
  exact absurd this (by decide)

/-- A printed number is read back, in the base its own digits give. -/
theorem strtoul_decimal (n : Nat) (rest : Bytes) (hrest : rest = [] ∨ ∃ r, rest = 46 :: r) :
    strtoul 0 (decimal n ++ rest) = (n, rest) := by
  have hd := decimal_digits n
  by_cases hz : (decimal n).head? = some 48
  · have h0 := hd.lead hz
    have hn : n = 0 := by
      have := hd.value
      rw [h0] at this
      exact this.symm
    subst hn
    rw [h0]
    rcases hrest with rfl | ⟨r, rfl⟩
    · rfl
    · cases r <;> rfl
  · have hhead : (decimal n ++ rest).head? ≠ some 48 := by
      rw [List.head?_append_of_ne_nil _ hd.nonempty]
      exact hz
    have hhex : hexMarked (decimal n ++ rest) = false := by
      unfold hexMarked
      split
      · rename_i z x d tail heq
        rw [heq] at hhead
        have hne : z ≠ 48#8 := fun hz => hhead (by rw [hz]; rfl)
        simp [hne]
      · rfl
    rw [strtoul, hhex, if_neg (by simp), if_neg (by simp), if_neg hhead]
    apply hd.readDigits
    rcases hrest with rfl | ⟨r, rfl⟩
    · simp
    · intro b hb
      rw [← Option.some.inj hb]
      decide

/-- `atoi` inverts `%d`. -/
theorem atoi_decimal {n : Nat} (h : n < 2 ^ 31) : atoi (decimal n) = BitVec.ofNat 32 n := by
  have hd := decimal_digits n
  obtain ⟨b, bs, hbs⟩ := List.exists_cons_of_ne_nil hd.nonempty
  have hb := hd.digit b (by rw [hbs]; exact List.mem_cons_self)
  have hle : 48 ≤ b.toNat := BitVec.le_def.mp hb.1
  have hle' : b.toNat ≤ 57 := BitVec.le_def.mp hb.2
  have hspace : (decimal n).dropWhile isSpace = b :: bs := by
    rw [hbs, List.dropWhile_cons_of_neg]
    simp only [isSpace, Bool.or_eq_true, decide_eq_true_eq, Bool.and_eq_true, not_or, not_and]
    refine ⟨?_, fun _ h13 => ?_⟩
    · rintro rfl
      exact absurd hle (by decide)
    · have : b.toNat ≤ 13 := BitVec.le_def.mp h13
      omega
  have hnum : (strtoul 10 (b :: bs)).1 = n := by
    have hr := hd.readDigits [] (by simp)
    rw [List.append_nil, hbs] at hr
    rw [strtoul, if_neg (by simp), if_pos (by decide), hr]
  have hsigned : signed 10 (b :: bs) = n := by
    unfold signed
    split
    · rename_i t he
      rw [(List.cons.inj he).1] at hle
      exact absurd hle (by decide)
    · rename_i t he
      rw [(List.cons.inj he).1] at hle
      exact absurd hle (by decide)
    · rw [hnum]
  have hclamp : max (-2 ^ 63) (min (n : Int) (2 ^ 63 - 1)) = n := by omega
  rw [atoi, strtol, cstr_eq_self hd.no_nul, hspace, hsigned, hclamp, BitVec.ofInt_natCast]

/-! ## Bytes in hexadecimal -/

def hexDigit (d : Nat) : Byte := BitVec.ofNat 8 (if d < 10 then 48 + d else 87 + d)

/-- `%02x` of a byte. -/
def hex2 (b : Byte) : Bytes := [hexDigit (b.toNat / 16), hexDigit (b.toNat % 16)]

theorem digitVal_hexDigit {d : Nat} (h : d < 16) : digitVal (hexDigit d) = d := by
  interval_cases d <;> rfl

/-- A byte that is no digit or letter is no hexadecimal digit. -/
theorem hexDigit_ne {d : Nat} (h : d < 16) {b : Byte} (hb : digitVal b = 36) : hexDigit d ≠ b := by
  intro heq
  have hd := digitVal_hexDigit h
  rw [heq, hb] at hd
  omega

theorem digitVal_of_isSpace {b : Byte} (h : isSpace b = true) : digitVal b = 36 := by
  simp only [isSpace, Bool.or_eq_true, Bool.and_eq_true, decide_eq_true_eq, BitVec.le_def] at h
  have hle : b.toNat ≤ 32 := by
    rcases h with h | h
    · rw [h]
      decide
    · exact Nat.le_trans h.2 (by decide)
  have hbelow : ∀ low : Byte, 33 ≤ low.toNat → ¬ low ≤ b := by
    intro low hlow hlowb
    have := BitVec.le_def.mp hlowb
    omega
  rw [digitVal, if_neg (fun hd => hbelow 48 (by decide) hd.1),
    if_neg (fun hd => hbelow 97 (by decide) hd.1), if_neg (fun hd => hbelow 65 (by decide) hd.1)]

theorem hi_lt (b : Byte) : b.toNat / 16 < 16 := by
  have := b.isLt
  omega

theorem lo_lt (b : Byte) : b.toNat % 16 < 16 := Nat.mod_lt _ (by decide)

theorem not_mem_hex2 {sep : Byte} (hsep : digitVal sep = 36) (b : Byte) : sep ∉ hex2 b := by
  intro h
  simp only [hex2, List.mem_cons, List.not_mem_nil, or_false] at h
  rcases h with h | h
  · exact hexDigit_ne (hi_lt b) hsep h.symm
  · exact hexDigit_ne (lo_lt b) hsep h.symm

theorem strtoul_hex2 (b : Byte) : strtoul 16 (hex2 b) = (b.toNat, []) := by
  have hmarked : hexMarked (hex2 b) = false := rfl
  have hhi := digitVal_hexDigit (hi_lt b)
  have hlo := digitVal_hexDigit (lo_lt b)
  have hdigits : readDigits 16 (hex2 b) = (ofDigits 16 [b.toNat / 16, b.toNat % 16], []) := by
    rw [readDigits, hex2]
    simp [hhi, hlo, hi_lt b, lo_lt b]
  have hvalue : ofDigits 16 [b.toNat / 16, b.toNat % 16] = b.toNat := by
    simp only [ofDigits, List.foldl_cons, List.foldl_nil]
    omega
  rw [strtoul, hmarked, if_neg (by simp), if_pos (by decide), hdigits, hvalue]

/-- A byte printed in hexadecimal is read back. -/
theorem strtol_hex2 (b : Byte) : strtol 16 (hex2 b) = b.toNat := by
  have hspace : (hex2 b).dropWhile isSpace = hex2 b := by
    refine List.dropWhile_cons_of_neg fun h => ?_
    exact hexDigit_ne (hi_lt b) (digitVal_of_isSpace h) rfl
  have hsigned : signed 16 (hex2 b) = b.toNat := by
    unfold signed
    split
    · rename_i t he
      exact absurd (List.cons.inj he).1 (hexDigit_ne (hi_lt b) rfl)
    · rename_i t he
      exact absurd (List.cons.inj he).1 (hexDigit_ne (hi_lt b) rfl)
    · rw [strtoul_hex2]
  have hclamp : max (-2 ^ 63) (min (b.toNat : Int) (2 ^ 63 - 1)) = b.toNat := by
    have := b.isLt
    omega
  rw [strtol, cstr_eq_self (not_mem_hex2 rfl b), hspace, hsigned, hclamp]

end Cpe.Lib.Number
