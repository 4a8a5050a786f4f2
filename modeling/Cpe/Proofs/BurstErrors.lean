import Cpe.Proofs.CrcTable

/-! # Burst errors

The polynomial has its highest bit, so the checksum tells two buffers apart
whenever the bits in which they differ lie in 32 consecutive places. -/
namespace Cpe.Proofs.BurstErrors
open Cpe.Lib.ByteOrder Cpe.Lib.Crc Cpe.Uvpp Cpe.Proofs.CrcTable

theorem length_bufferBits (bs : Bytes) : (bufferBits bs).length = 8 * bs.length := by
  induction bs with
  | nil => rfl
  | cons b bs ih =>
    rw [bufferBits, List.flatMap_cons, List.length_append, length_bitsOf, ← bufferBits, ih,
      List.length_cons]
    omega

theorem length_eq_of_bufferBits_eq {bs cs : Bytes} (h : bufferBits bs = bufferBits cs) :
    bs.length = cs.length := by
  have hlen := congrArg List.length h
  rw [length_bufferBits, length_bufferBits] at hlen
  omega

/-- A buffer is known by its bits. -/
theorem bufferBits_injective : Function.Injective bufferBits := by
  intro bs cs h
  have hlen := length_eq_of_bufferBits_eq h
  induction bs generalizing cs with
  | nil => exact (List.length_eq_zero_iff.mp hlen.symm).symm
  | cons b bs ih =>
    cases cs with
    | nil => cases hlen
    | cons c cs =>
      rw [bufferBits, bufferBits, List.flatMap_cons, List.flatMap_cons] at h
      obtain ⟨hbyte, hrest⟩ := List.append_inj h (by rw [length_bitsOf, length_bitsOf])
      rw [bitsOf_injective hbyte, ih hrest (Nat.succ.inj hlen)]

/-- **Every burst of up to 32 bits changes the checksum**, of buffers that can be
passed, of less than 2 ^ 31 bytes, and of any others. -/
theorem getCRC_ne_of_burst (bs cs : Bytes) (buf buf' : Ptr) (h : buf.StartsWith bs)
    (h' : buf'.StartsWith cs) (hpos : 1 ≤ bs.length) (hlen : bs.length = cs.length)
    (hne : bs ≠ cs) (hburst : DifferWithin 32 (bufferBits bs) (bufferBits cs)) :
    getCRC buf bs.length ≠ getCRC buf' cs.length := by
  have hbits : (bufferBits bs).length = (bufferBits cs).length := by
    rw [length_bufferBits, length_bufferBits, hlen]
  have hdiffer : bufferBits bs ≠ bufferBits cs := fun heq => hne (bufferBits_injective heq)
  have htop : polynomial.msb = true := by decide
  have hrem := remainder_ne_of_differWithin htop 0 hbits hdiffer hburst
  rw [getCRC_eq_foldl h hpos, getCRC_eq_foldl h' (by omega), foldl_crcByte, foldl_crcByte]
  intro heq
  exact hrem (BitVec.not_inj.mp heq)

/-- Two bits of neighbouring bytes. -/
theorem getCRC_ne_of_burst_two :
    getCRC (Ptr.ofBytes [7, 0x80, 1]) 3 ≠ getCRC (Ptr.ofBytes [7, 0, 0]) 3 := by
  have hburst : DifferWithin 32 (bufferBits [7, 0x80, 1]) (bufferBits [7, 0, 0]) := by
    refine ⟨15, ?_⟩
    intro i hi
    have hbits : ∀ j < 15, (bufferBits [7, 0x80, 1])[j]? = (bufferBits [7, 0, 0])[j]? := by decide
    have hend : i < 24 := by
      by_contra hout
      have hover : ∀ xs : Bytes, xs.length = 3 → (bufferBits xs)[i]? = none := by
        intro xs hxs
        rw [List.getElem?_eq_none_iff, length_bufferBits, hxs]
        omega
      exact hi ((hover _ rfl).trans (hover _ rfl).symm)
    refine ⟨?_, by omega⟩
    by_contra hlow
    exact hi (hbits i (by omega))
  exact getCRC_ne_of_burst [7, 0x80, 1] [7, 0, 0] _ _ (ofBytes_startsWith _)
    (ofBytes_startsWith _) (by decide) rfl (by decide) hburst

end Cpe.Proofs.BurstErrors
