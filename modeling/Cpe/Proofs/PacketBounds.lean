import Cpe.Main.Reads
import Cpe.Proofs.FrameTransport
import Cpe.Proofs.TapClasses

/-! # Reads inside the packet

The device path drops what is shorter than the 20 bytes of an IPv4 header. In
TUN mode this is enough. In TAP mode the IPv4 header stands behind 14 bytes of
Ethernet header, and the destination of a frame that says IPv4 and has fewer
than 34 bytes is read from behind its end. -/
namespace Cpe.Proofs.PacketBounds
open Cpe.Lib.ByteOrder Cpe.Lib.CString Cpe.Lib.Access Cpe.Pro Cpe.Main
open Cpe.Proofs.FrameTransport Cpe.Proofs.TapClasses

/-- The memory a frame is dispatched in, from its first byte on: the message
that was built of it, its terminator, and what is behind it. -/
def packetIn (frame : Bytes) (behind : Ptr) : Ptr := (cstrPtr (message frame) behind).add 4

/-- The dispatch of a frame reads bytes of the frame only, and what it does is
the same whatever is behind. -/
structure StaysInside (s : Server) (frame : Bytes) : Prop where
  inside : ∀ behind, s.dispatchReads.Within (packetIn frame behind) frame.length
  independent : ∀ behind behind', s.handlePacketFromDev behind (message frame) =
    s.handlePacketFromDev behind' (message frame)

/-- An IPv4 frame that TAP mode dispatches by its destination, and that ends
before it. -/
def CutShort (s : Server) (frame : Bytes) : Prop :=
  s.config.onlyAcc = 0 ∧ s.config.tapMode ≠ 0 ∧ etherType frame = ETH_P_IP ∧ frame.length < 34

instance (s : Server) (frame : Bytes) : Decidable (CutShort s frame) :=
  inferInstanceAs (Decidable (_ ∧ _))

theorem packetIn_startsWith (frame : Bytes) (behind : Ptr) :
    (packetIn frame behind).StartsWith frame := by
  intro i hi
  have hin : 4 + i < (message frame).length := by
    rw [message_length]
    omega
  unfold packetIn Ptr.add cstrPtr
  rw [if_pos hin, message, List.getD_append_right _ _ _ _ (by rw [bytes32_length]; omega),
    bytes32_length, Nat.add_sub_cancel_left]

/-- Nothing else is in front of the end of the frame. -/
theorem packetIn_agree (frame : Bytes) (behind behind' : Ptr) (i : Nat) (hi : i < frame.length) :
    packetIn frame behind i = packetIn frame behind' i := by
  rw [packetIn_startsWith frame behind i hi, packetIn_startsWith frame behind' i hi]

section
variable {s : Server} {frame : Bytes} (hsize : 20 ≤ frame.length) (behind : Ptr)
include hsize

theorem tapProto_packetIn : tapProto (packetIn frame behind) = etherType frame :=
  htons_load16 (packetIn_startsWith frame behind) (by omega)

/-- The offsets the TAP dispatch reads. -/
theorem tapFields_within_iff :
    tapFields.Within (packetIn frame behind) frame.length ↔
      (etherType frame = ETH_P_IP → 34 ≤ frame.length) := by
  unfold Reads.Within
  rw [tapFields_offsets, tapProto_packetIn hsize]
  by_cases htype : etherType frame = ETH_P_IP
  · rw [if_pos htype]
    constructor
    · intro h _
      have hlast : 33 < frame.length := h 33 (by decide)
      exact hlast
    · intro h off hoff
      have hlong := h htype
      simp only [List.mem_append, List.mem_cons, List.mem_range'_1] at hoff
      omega
  · rw [if_neg htype]
    constructor
    · intro _ he
      exact absurd he htype
    · intro _ off hoff
      simp only [List.append_nil, List.mem_append, List.mem_range'_1] at hoff
      omega

theorem dispatch_within_iff :
    s.dispatchReads.Within (packetIn frame behind) frame.length ↔ ¬ CutShort s frame := by
  unfold Server.dispatchReads CutShort
  by_cases hacc : s.config.onlyAcc = 0
  · by_cases htap : s.config.tapMode = 0
    · simp only [hacc, htap, ne_eq, not_true_eq_false, if_false, false_and, and_false,
        not_false_eq_true, iff_true]
      intro off hoff
      rw [offsets_bind, offsets_load32, offsets_pure, List.append_nil, List.mem_range'_1] at hoff
      omega
    · have hwithin := tapFields_within_iff hsize behind
      simp only [hacc, htap, ne_eq, not_true_eq_false, not_false_eq_true, if_false, if_true,
        true_and, not_and, Nat.not_lt]
      rw [← hwithin]
      unfold Reads.Within
      rw [offsets_bind, offsets_pure, List.append_nil]
  · simp only [hacc, ne_eq, not_false_eq_true, if_true, false_and, iff_true]
    intro off hoff
    cases hoff

end

/-- **A dispatch stays inside its frame** exactly if it is not the dispatch, in
TAP mode, of an IPv4 frame that is shorter than its two headers. -/
theorem stays_inside_iff (s : Server) (frame : Bytes) (hsize : 20 ≤ frame.length) :
    StaysInside s frame ↔ ¬ CutShort s frame := by
  constructor
  · intro h
    exact (dispatch_within_iff hsize (fun _ => 0)).mp (h.inside fun _ => 0)
  · intro h
    have hinside : ∀ behind, s.dispatchReads.Within (packetIn frame behind) frame.length :=
      fun behind => (dispatch_within_iff hsize behind).mpr h
    refine ⟨hinside, ?_⟩
    intro behind behind'
    have hrun := (hinside behind).run_eq (packetIn_agree frame behind behind')
    rw [handlePacketFromDev_run, handlePacketFromDev_run]
    unfold packetIn at hrun
    rw [hrun]

/-! ## A frame of 20 bytes -/

/-- A server in TAP mode with a peer at 10.0.0.2. -/
def tapPeer : Server :=
  { started ⟨wire, id⟩ 3 1 { tapMode := 1 } 9 with
    cpes := [⟨2, 0x0a000002, 0x0a000002, 0x0a000002, [], [2, 0, 0, 0, 0, 2]⟩] }

/-- An Ethernet frame that says IPv4, with 6 bytes of payload. -/
def stub : Bytes := List.replicate 12 255 ++ [8, 0] ++ List.replicate 6 0

/-- Memory that has the peer's address at an offset of the message. -/
def addressAt (off : Nat) : Ptr := Ptr.ofBytes (List.replicate off 0 ++ [10, 0, 0, 2])

/-- Where the stub goes is decided by what is behind it. -/
theorem stub_reads_behind :
    ¬ StaysInside tapPeer stub ∧
      (tapPeer.handlePacketFromDev (addressAt 34) (message stub)).1.1 = 2 ∧
      (tapPeer.handlePacketFromDev (addressAt 40) (message stub)).1.1 = 9 := by
  have hpeer : (tapPeer.handlePacketFromDev (addressAt 34) (message stub)).1.1 = 2 := by
    decide +kernel
  have hgateway : (tapPeer.handlePacketFromDev (addressAt 40) (message stub)).1.1 = 9 := by
    decide +kernel
  refine ⟨?_, hpeer, hgateway⟩
  intro h
  rw [h.independent (addressAt 34) (addressAt 40), hgateway] at hpeer
  cases hpeer

theorem whole_header_inside : StaysInside tapPeer (ipFrame (List.replicate 6 255) 0x0a000002) :=
  (stays_inside_iff tapPeer (ipFrame (List.replicate 6 255) 0x0a000002) (by decide)).mpr
    (by decide)

end Cpe.Proofs.PacketBounds
