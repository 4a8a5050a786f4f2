import Cpe.Lib.Crc
import Cpe.Uvpp.Crc

/-! # The checksum and its table

The 256 words of the table are eight divisions of their index each, so the
checksum is the complement of a remainder of the whole buffer. -/
namespace Cpe.Proofs.CrcTable
open Cpe.Lib.ByteOrder Cpe.Lib.Crc Cpe.Uvpp

/-- The polynomial, reflected. -/
def polynomial : U32 := 0xEDB88320

/-- The bits of a buffer, byte by byte, the least significant first. -/
def bufferBits (bs : Bytes) : List Bool := bs.flatMap bitsOf

/-- **The table**: each word is eight divisions of its index. -/
theorem table_eq :
    table = (List.range 256).map fun i => divides polynomial 8 (BitVec.ofNat 32 i) := by
  decide +kernel

theorem table_getD {i : Nat} (h : i < 256) :
    table.getD i 0 = divides polynomial 8 (BitVec.ofNat 32 i) := by
  rw [table_eq, List.getD_eq_getElem?_getD]
  simp [h]

/-- The index of a table lookup is the low byte. -/
theorem and_ff_eq_low (x : U32) : x &&& 0xff = low 8 x := by
  apply BitVec.eq_of_getLsbD_eq
  intro i hi
  rw [BitVec.getLsbD_and, getLsbD_low, Bool.and_comm]
  congr 1
  have hmask : ∀ i < 32, (0xff : U32).getLsbD i = decide (i < 8) := by decide
  exact hmask i hi

/-- One turn of the loop divides the register and the eight bits of the byte. -/
theorem crcByte_eq (crc : U32) (b : Byte) :
    crcByte crc b = remainder polynomial crc (bitsOf b) := by
  have hindex : (low 8 (crc ^^^ b.setWidth 32)).toNat < 256 := by
    rw [low, BitVec.toNat_setWidth]
    exact Nat.lt_of_le_of_lt (Nat.mod_le _ _) (BitVec.isLt _)
  rw [crcByte, and_ff_eq_low, table_getD hindex, BitVec.ofNat_toNat, BitVec.setWidth_eq,
    remainder_bitsOf polynomial (by decide)]

theorem foldl_crcByte (bs : Bytes) (crc : U32) :
    bs.foldl crcByte crc = remainder polynomial crc (bufferBits bs) := by
  induction bs generalizing crc with
  | nil => rfl
  | cons b bs ih =>
    rw [List.foldl_cons, ih, crcByte_eq, bufferBits, bufferBits, List.flatMap_cons, remainder,
      remainder, remainder, List.foldl_append]

/-- The loop over the indices reads the buffer. -/
theorem foldl_range {buf : Ptr} {bs : Bytes} (h : buf.StartsWith bs) :
    (List.range bs.length).foldl (fun crc i => crcByte crc (buf i)) 0 = bs.foldl crcByte 0 := by
  have hslice : (List.range bs.length).map buf = bs := by
    have hread : buf.slice 0 bs.length = (bs.drop 0).take bs.length :=
      slice_startsWith h (Nat.le_of_eq (Nat.zero_add _))
    rw [List.drop_zero, List.take_length, Ptr.slice] at hread
    simpa only [Nat.zero_add] using hread
  conv_rhs => rw [← hslice]
  rw [List.foldl_map]

/-- The checksum as a fold over the bytes of the buffer. -/
theorem getCRC_eq_foldl {buf : Ptr} {bs : Bytes} (h : buf.StartsWith bs) (hpos : 1 ≤ bs.length) :
    getCRC buf bs.length = ~~~ bs.foldl crcByte 0 := by
  have hones : ∀ x : U32, x ^^^ 0xffffffff = ~~~x := fun x => BitVec.xor_allOnes
  rw [getCRC, if_neg (by omega), Int.toNat_natCast, foldl_range h, hones]

/-- **The checksum of a buffer** is the complement of its remainder. A buffer that
can be passed has less than 2 ^ 31 bytes; the bound is not needed. -/
theorem getCRC_eq_remainder (bs : Bytes) (buf : Ptr) (h : buf.StartsWith bs) :
    getCRC buf bs.length = ~~~ remainder polynomial 0 (bufferBits bs) := by
  by_cases hempty : (bs.length : Int) < 1
  · have hnil : bs = [] := List.length_eq_zero_iff.mp (by omega)
    rw [getCRC, if_pos hempty, hnil]
    decide
  · rw [getCRC_eq_foldl h (by omega), foldl_crcByte]

/-- Three bytes in front of others. -/
theorem getCRC_three :
    getCRC (Ptr.ofBytes [1, 2, 3, 4]) 3 = ~~~ remainder polynomial 0 (bufferBits [1, 2, 3]) := by
  have hmem : (Ptr.ofBytes [1, 2, 3, 4]).StartsWith [1, 2, 3] := by
    intro i hi
    have hcases : i = 0 ∨ i = 1 ∨ i = 2 := by
      have hlen : i < 3 := hi
      omega
    rcases hcases with rfl | rfl | rfl <;> rfl
  exact getCRC_eq_remainder [1, 2, 3] (Ptr.ofBytes [1, 2, 3, 4]) hmem

end Cpe.Proofs.CrcTable
