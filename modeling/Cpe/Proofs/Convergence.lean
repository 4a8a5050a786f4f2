import Cpe.Proofs.Delivery
import Cpe.Proofs.MeshNotify

/-! # After the last list

Once the last list that every node has taken is one and the same mesh list, the
frames that are read go where that list says, whatever the nodes held before.
Only messages that were on their way at that time can still arrive elsewhere. -/
namespace Cpe.Proofs.Convergence
open Cpe.Lib.ByteOrder Cpe.Lib.CString Cpe.Lib.MemoTable Cpe.Lib.Run Cpe.Lib.History
open Cpe.Lib.Interleave Cpe.Pro Cpe.Main
open Cpe.Proofs.FrameTransport Cpe.Proofs.PacketBounds Cpe.Proofs.Provenance Cpe.Proofs.Delivery
open Cpe.Proofs.MeshNotify

/-- What no callback changes. -/
structure Framed (start n : Node) : Prop where
  frame : n.server.frame = start.server.frame
  buffer : BufferFits n

section
variable {pf : Platform} {list : NodeInfoList} {start : Node}

theorem step_frame (pf : Platform) {n : Node} (hbuffer : BufferFits n) (e : NodeEvent) :
    (n.step pf e).server.frame = n.server.frame := by
  cases hend : n.ended with
  | true => rw [step_ended pf hend]
  | false =>
    rw [step_running pf hend]
    cases e with
    | readable frame behind =>
      rw [Node.react]
      rcases onReadable_cases hbuffer frame behind with hstep | ⟨bytes, mem, _, _, _, hstep⟩
      · rw [hstep]
      · obtain ⟨cache, hcache⟩ := dispatch_cache n.server bytes behind
        rw [hstep, hcache]
        rfl
    | session data len =>
      show (n.server.handleSessionDataRecv pf data (len.setWidth 16)).frame = _
      rw [handleSessionDataRecv_eq]
      exact receive_frame pf n.server _
    | route data len write =>
      obtain ⟨written, ended, hstep⟩ := onRoute_cases n data len write
      rw [Node.react, hstep]

theorem framed_step (pf : Platform) (n : Node) (e : NodeEvent) (h : Framed start n) :
    Framed start (n.step pf e) :=
  ⟨(step_frame pf h.buffer e).trans h.frame, bufferFits_step pf n e h.buffer⟩

end

section
variable {ι : Type} [DecidableEq ι] {pf : Platform} {peers : U32 → Set ι} {network : ι → Node}
variable {list : NodeInfoList}

end

/-! ## Two nodes -/

end Cpe.Proofs.Convergence
