import Mathlib.Data.BitVec
import Mathlib.Data.List.GetD
import Mathlib.Tactic.Common

/-! # Words of bytes

Little-endian loads of bytes into words, and the byte swaps a little-endian
host makes between host and network order. -/
namespace Cpe.Lib.ByteOrder

abbrev Byte := BitVec 8
abbrev Bytes := List Byte
abbrev U16 := BitVec 16
abbrev U32 := BitVec 32

/-- Memory from a pointer on. -/
abbrev Ptr := Nat → Byte

/-- The byte `i` of a word, the least significant first. -/
def byte {w : Nat} (x : BitVec w) (i : Nat) : Byte := x.extractLsb' (8 * i) 8

def le16 (b0 b1 : Byte) : U16 := b1 ++ b0

def le32 (b0 b1 b2 b3 : Byte) : U32 := b3 ++ b2 ++ b1 ++ b0

def Ptr.load16 (p : Ptr) (off : Nat) : U16 := le16 (p off) (p (off + 1))

def Ptr.load32 (p : Ptr) (off : Nat) : U32 :=
  le32 (p off) (p (off + 1)) (p (off + 2)) (p (off + 3))

/-- The `n` bytes at offset `off`. -/
def Ptr.slice (p : Ptr) (off n : Nat) : Bytes := (List.range n).map fun i => p (off + i)

/-- The bytes of a buffer, followed by zeros. -/
def Ptr.ofBytes (bs : Bytes) : Ptr := fun i => bs.getD i 0

def Ptr.add (p : Ptr) (off : Nat) : Ptr := fun i => p (off + i)

/-- The bytes of a word in memory. -/
def bytes16 (x : U16) : Bytes := [byte x 0, byte x 1]

def bytes32 (x : U32) : Bytes := [byte x 0, byte x 1, byte x 2, byte x 3]

theorem bytes16_length (x : U16) : (bytes16 x).length = 2 := rfl

theorem bytes32_length (x : U32) : (bytes32 x).length = 4 := rfl

def htons (x : U16) : U16 := le16 (byte x 1) (byte x 0)

def htonl (x : U32) : U32 := le32 (byte x 3) (byte x 2) (byte x 1) (byte x 0)

/-- An `int` cut to 16 bits. -/
theorem toNat_setWidth_int (x : U32) : ((x.setWidth 16).toNat : Int) = x.toInt % 65536 := by
  have hint := BitVec.toInt_eq_toNat_cond x
  have hlt := x.isLt
  rw [BitVec.toNat_setWidth]
  split at hint <;> omega

theorem slice_length (p : Ptr) (off n : Nat) : (p.slice off n).length = n := by
  rw [Ptr.slice, List.length_map, List.length_range]

/-- Within the buffer, a slice is a part of the buffer. -/
theorem slice_ofBytes {bs : Bytes} {off n : Nat} (h : off + n ≤ bs.length) :
    (Ptr.ofBytes bs).slice off n = (bs.drop off).take n := by
  apply List.ext_getElem
  · rw [slice_length, List.length_take, List.length_drop]
    omega
  · intro i hi _
    rw [slice_length] at hi
    have hin : off + i < bs.length := by omega
    simp [Ptr.slice, Ptr.ofBytes, hin]

theorem byte_le32 (b0 b1 b2 b3 : Byte) :
    byte (le32 b0 b1 b2 b3) 0 = b0 ∧ byte (le32 b0 b1 b2 b3) 1 = b1 ∧
      byte (le32 b0 b1 b2 b3) 2 = b2 ∧ byte (le32 b0 b1 b2 b3) 3 = b3 := by
  refine ⟨?_, ?_, ?_, ?_⟩
  all_goals
    apply BitVec.eq_of_getLsbD_eq
    intro i hi
    simp [byte, le32, hi]
    grind

theorem le32_byte (x : U32) : le32 (byte x 0) (byte x 1) (byte x 2) (byte x 3) = x := by
  apply BitVec.eq_of_getLsbD_eq
  intro i hi
  simp [byte, le32]
  grind

theorem le32_or (a0 a1 a2 a3 b0 b1 b2 b3 : Byte) :
    le32 a0 a1 a2 a3 ||| le32 b0 b1 b2 b3 =
      le32 (a0 ||| b0) (a1 ||| b1) (a2 ||| b2) (a3 ||| b3) := by
  apply BitVec.eq_of_getLsbD_eq
  intro i hi
  simp [le32]
  grind

@[simp] theorem htonl_le32 (b0 b1 b2 b3 : Byte) :
    htonl (le32 b0 b1 b2 b3) = le32 b3 b2 b1 b0 := by
  obtain ⟨h0, h1, h2, h3⟩ := byte_le32 b0 b1 b2 b3
  rw [htonl, h0, h1, h2, h3]

/-! ## Fields in network order -/

/-- A memory that begins with the bytes of a buffer. -/
def Ptr.StartsWith (p : Ptr) (bs : Bytes) : Prop := ∀ i, i < bs.length → p i = bs.getD i 0

/-- The fields of a buffer that hold their most significant byte first. -/
def net16 (bs : Bytes) (off : Nat) : U16 := bs.getD off 0 ++ bs.getD (off + 1) 0

def net32 (bs : Bytes) (off : Nat) : U32 :=
  bs.getD off 0 ++ bs.getD (off + 1) 0 ++ bs.getD (off + 2) 0 ++ bs.getD (off + 3) 0

theorem ofBytes_startsWith (bs : Bytes) : (Ptr.ofBytes bs).StartsWith bs := fun _ _ => rfl

section
variable {p : Ptr} {bs : Bytes} {off : Nat}

theorem byte_le16 (b0 b1 : Byte) : byte (le16 b0 b1) 0 = b0 ∧ byte (le16 b0 b1) 1 = b1 := by
  refine ⟨?_, ?_⟩
  all_goals
    apply BitVec.eq_of_getLsbD_eq
    intro i hi
    simp [byte, le16, hi]
    grind

theorem htons_load16 (h : p.StartsWith bs) (hoff : off + 2 ≤ bs.length) :
    htons (p.load16 off) = net16 bs off := by
  obtain ⟨h0, h1⟩ := byte_le16 (p off) (p (off + 1))
  rw [htons, Ptr.load16, h0, h1, h off (by omega), h (off + 1) (by omega)]
  rfl

theorem htonl_load32 (h : p.StartsWith bs) (hoff : off + 4 ≤ bs.length) :
    htonl (p.load32 off) = net32 bs off := by
  rw [Ptr.load32, htonl_le32, h off (by omega), h (off + 1) (by omega), h (off + 2) (by omega),
    h (off + 3) (by omega)]
  simp only [le32, net32]

theorem le16_byte (x : U16) : le16 (byte x 0) (byte x 1) = x := by
  apply BitVec.eq_of_getLsbD_eq
  intro i hi
  simp [byte, le16]
  grind

/-- The bytes of a word load as the word. -/
theorem load16_bytes16 {xs ys : Bytes} {x : U16} (h : p.StartsWith (xs ++ bytes16 x ++ ys)) :
    p.load16 xs.length = x := by
  have hlow : p xs.length = byte x 0 := by
    rw [h xs.length (by simp [bytes16]), List.append_assoc,
      List.getD_append_right _ _ _ _ (Nat.le_refl _), Nat.sub_self]
    rfl
  have hhigh : p (xs.length + 1) = byte x 1 := by
    rw [h (xs.length + 1) (by simp [bytes16]), List.append_assoc,
      List.getD_append_right _ _ _ _ (Nat.le_add_right _ _), Nat.add_sub_cancel_left]
    rfl
  rw [Ptr.load16, hlow, hhigh, le16_byte]

theorem slice_startsWith {n : Nat} (h : p.StartsWith bs) (hoff : off + n ≤ bs.length) :
    p.slice off n = (bs.drop off).take n := by
  rw [← slice_ofBytes hoff]
  apply List.map_congr_left
  intro i hi
  exact h (off + i) (by have := List.mem_range.mp hi; omega)

/-- Fields behind a header are the fields of the buffer without it. -/
theorem net16_append (header : Bytes) (off : Nat) :
    net16 (header ++ bs) (header.length + off) = net16 bs off := by
  simp only [net16, Nat.add_assoc, List.getD_append_right _ _ _ _ (Nat.le_add_right _ _),
    Nat.add_sub_cancel_left]

theorem net32_append (header : Bytes) (off : Nat) :
    net32 (header ++ bs) (header.length + off) = net32 bs off := by
  simp only [net32, Nat.add_assoc, List.getD_append_right _ _ _ _ (Nat.le_add_right _ _),
    Nat.add_sub_cancel_left]

end

/-- The bytes of a word in network order. -/
def netBytes16 (x : U16) : Bytes := [byte x 1, byte x 0]

def netBytes32 (x : U32) : Bytes := [byte x 3, byte x 2, byte x 1, byte x 0]

theorem net16_netBytes16 (x : U16) (bs : Bytes) : net16 (netBytes16 x ++ bs) 0 = x := le16_byte x

theorem net32_netBytes32 (x : U32) (bs : Bytes) : net32 (netBytes32 x ++ bs) 0 = x := le32_byte x

end Cpe.Lib.ByteOrder
