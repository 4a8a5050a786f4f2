import Cpe.Lib.Trace
import Cpe.Proofs.Convergence
import Mathlib.Data.Multiset.MapFold

/-! # Each frame once

The overlay adds nothing and loses nothing itself: what a node has written to its
device, together with the frames in messages that the library has kept or the
device has refused, are just the frames that were read for it. Once all nodes
follow one list, these are the frames whose address the list gives it. -/
namespace Cpe.Proofs.FrameAccounts
open Cpe.Lib.ByteOrder Cpe.Lib.Run Cpe.Lib.Trace Cpe.Lib.Interleave Cpe.Pro Cpe.Main
open Cpe.Proofs.FrameTransport Cpe.Proofs.Provenance Cpe.Proofs.Delivery Cpe.Proofs.Convergence
open Cpe.Proofs.MeshNotify

/-! ## What a callback takes and gives -/

/-- What the library is given by a callback: ids and messages. -/
def sends (pf : Platform) (n : Node) (e : NodeEvent) : List (U32 × Bytes) :=
  (n.step pf e).sent.drop n.sent.length

/-- The message that a running node is handed, when the write to its device does
not fail. -/
def takes (n : Node) : NodeEvent → List Bytes
  | .route data len write =>
    if n.ended ∨ (n.server.recvRouteMsgCallback write data len).exits then []
    else [data.slice 0 len.toNat]
  | _ => []

/-- The frame that a node reads and survives, as far as one read takes it, with
an id for it. -/
def reads (dest : Node → Bytes → Ptr → U32) (n : Node) : NodeEvent → List (U32 × Bytes)
  | .readable (some frame) behind =>
    if n.ended = false ∧ n.buffer.isSome ∧ 20 ≤ frame.length then
      [(dest n frame behind, frame.take PACK_MTU)]
    else []
  | _ => []

/-- The id that the node dispatches the frame to. -/
def dispatched (n : Node) (frame : Bytes) (behind : Ptr) : U32 :=
  (n.server.handlePacketFromDev behind (messageOf frame)).1.1

/-- The id that a list gives the destination address of the frame. -/
def listed (list : NodeInfoList) (n : Node) (frame : Bytes) (_ : Ptr) : U32 :=
  listDest list n.server.config.gateWay n.server.gatewayId (net32 frame 16)

/-- A message that a node sends has the length and the frame. -/
def IsMessage (msg : Bytes) : Prop := ∃ frame, msg = messageOf frame

/-- The frame in a message. -/
def frameOf (msg : Bytes) : Bytes := msg.drop 4

theorem frameOf_message (data : Bytes) : frameOf (message data) = data :=
  List.drop_left' (bytes32_length _)

/-- A read is survived if there is a buffer and the frame is not too short. -/
theorem onReadable_survives {n : Node} (hbuffer : BufferFits n) (hend : n.ended = false)
    (frame : Bytes) (behind : Ptr) :
    (n.onReadable (some frame) behind).ended = false ↔ n.buffer.isSome ∧ 20 ≤ frame.length := by
  constructor
  · intro h
    cases hmem : n.buffer with
    | none =>
      rw [Node.onReadable, hmem] at h
      cases h
    | some mem =>
      refine ⟨rfl, ?_⟩
      rcases onReadable_cases hbuffer (some frame) behind with hstep | ⟨bytes, _, hframe, hmin, _⟩
      · rw [hstep] at h
        cases h
      · cases hframe
        exact hmin
  · intro h
    obtain ⟨hsome, hmin⟩ := h
    obtain ⟨mem, hmem⟩ := Option.isSome_iff_exists.mp hsome
    have hroom := hbuffer mem hmem
    have hlen : (frame.take PACK_MTU).length = min 1500 frame.length := List.length_take
    have hmax : (frame.take PACK_MTU).length ≤ PACK_MTU := List.length_take_le _ _
    obtain ⟨dest, s', hread⟩ := @onReadTunTap_eq n.server behind mem (frame.take PACK_MTU)
      (fun count => (some frame).map (·.take count)) (by omega) rfl (by omega) hmax
    rw [Node.onReadable, hmem, hread]
    exact hend

/-- What is sent is the message of the frame that is read. -/
theorem sends_eq (pf : Platform) (n : Node) (e : NodeEvent) (hbuffer : BufferFits n) :
    sends pf n e = (reads dispatched n e).map fun o => (o.1, message o.2) := by
  cases hend : n.ended with
  | true =>
    have hreads : reads dispatched n e = [] := by
      unfold reads
      split
      · rw [if_neg (by simp [hend])]
      · rfl
    rw [sends, step_ended pf hend, hreads, List.drop_length]
    rfl
  | false =>
    rw [sends, step_running pf hend]
    cases e with
    | session data len => exact List.drop_length
    | route data len write =>
      obtain ⟨written, ended, hstep⟩ := onRoute_cases n data len write
      rw [Node.react, hstep]
      exact List.drop_length
    | readable frame behind =>
      rw [Node.react]
      cases frame with
      | none =>
        rcases onReadable_cases hbuffer none behind with hstep | ⟨_, _, hframe, _⟩
        · rw [hstep]
          exact List.drop_length
        · cases hframe
      | some frame =>
        have hsurvives := onReadable_survives hbuffer hend frame behind
        rcases onReadable_cases hbuffer (some frame) behind with hstep | ⟨_, _, hframe, _, _, hstep⟩
        · rw [hstep] at hsurvives ⊢
          have hfails : ¬ (n.ended = false ∧ n.buffer.isSome ∧ 20 ≤ frame.length) :=
            fun h => absurd (hsurvives.mpr h.2) (by simp)
          rw [reads, if_neg hfails]
          exact List.drop_length
        · cases hframe
          rw [hstep] at hsurvives ⊢
          obtain ⟨dest, s', hd⟩ := handlePacketFromDev_msg n.server behind (messageOf frame)
          rw [reads, if_pos ⟨hend, hsurvives.mp hend⟩, List.drop_left, dispatched, hd]
          rfl

/-- A message in memory, with its length. -/
theorem message_in {data : Ptr} {len : U32} {frame : Bytes}
    (h : data.slice 0 len.toNat = messageOf frame) :
    data.StartsWith (messageOf frame) ∧ len = BitVec.ofNat 32 (messageOf frame).length := by
  have hlen : (messageOf frame).length = len.toNat := by rw [← h, slice_length]
  refine ⟨fun i hi => ?_, by rw [hlen, BitVec.ofNat_toNat, BitVec.setWidth_eq]⟩
  rw [hlen] at hi
  rw [← h, Ptr.slice, List.getD_eq_getElem?_getD, List.getElem?_map,
    List.getElem?_range hi]
  simp

/-- What is written is the frame of the message that is handed over. -/
theorem written_step (pf : Platform) (n : Node) (e : NodeEvent)
    (hfd : n.server.tunTapDevFd ≠ 0) (h : ∀ msg ∈ takes n e, IsMessage msg) :
    (n.step pf e).written = n.written ++ (takes n e).map frameOf := by
  cases hend : n.ended with
  | true =>
    have htakes : takes n e = [] := by
      unfold takes
      split
      · rw [if_pos (.inl hend)]
      · rfl
    rw [step_ended pf hend, htakes, List.map_nil, List.append_nil]
  | false =>
    rw [step_running pf hend]
    cases e with
    | readable frame behind =>
      have htakes : takes n (.readable frame behind) = [] := rfl
      rw [Node.react, Node.onReadable, htakes, List.map_nil, List.append_nil]
      split
      · rfl
      · rfl
    | session data len => exact (List.append_nil _).symm
    | route data len write =>
      show (n.onRoute data len write).written = _
      by_cases hexits : (n.server.recvRouteMsgCallback write data len).exits = true
      · have htakes : takes n (.route data len write) = [] := by
          rw [takes, if_pos (.inr hexits)]
        simp only [Node.onRoute, hexits, if_true, htakes, List.map_nil, List.append_nil]
      · have htakes : takes n (.route data len write) = [data.slice 0 len.toNat] := by
          rw [takes, if_neg (by simp [hend, hexits])]
        rw [htakes] at h ⊢
        obtain ⟨frame, hframe⟩ := h _ (List.mem_singleton_self _)
        obtain ⟨hmem, hlen⟩ := message_in hframe
        have hwrites : ∃ bytes, (n.server.recvRouteMsgCallback write data len).written =
            some bytes := by
          rw [Server.recvRouteMsgCallback, Server.handleRouteDataRecv, if_neg hfd]
          exact ⟨_, rfl⟩
        obtain ⟨bytes, hbytes⟩ := hwrites
        have hfound : bytes = frame.take PACK_MTU := written_message hmem (hlen ▸ hbytes)
        simp only [Node.onRoute, hexits, hbytes, hfound, hframe, List.map_cons, List.map_nil]
        show _ = n.written ++ [frameOf (message (frame.take PACK_MTU))]
        rw [frameOf_message]
        rfl

/-! ## Accounts of a run -/

section
variable {ι : Type} (peers : U32 → Set ι) [∀ dest, DecidablePred (· ∈ peers dest)]

/-- What is for a node of what goes to ids. -/
def forNode (j : ι) (os : List (U32 × Bytes)) : Multiset Bytes :=
  ((os.filter fun o => j ∈ peers o.1).map Prod.snd : List Bytes)

theorem forNode_messages (j : ι) (os : List (U32 × Bytes)) :
    forNode peers j (os.map fun o => (o.1, message o.2)) = (forNode peers j os).map message := by
  rw [forNode, forNode, List.filter_map, List.map_map, Multiset.map_coe, List.map_map]
  rfl

end

section
variable {ι : Type} [DecidableEq ι] (pf : Platform) (peers : U32 → Set ι)
variable [∀ dest, DecidablePred (· ∈ peers dest)] (network : ι → Node) (acts : List (ι × NodeEvent))

/-- The messages that a run sends for a node. -/
def sentFor (j : ι) : Multiset Bytes :=
  forNode peers j
    (trace (fun net act => sends pf (net act.1) act.2) (overlayStep pf) network acts)

/-- The messages that a node is handed in a run and its device does not refuse. -/
def handedTo (j : ι) : Multiset Bytes :=
  (trace takes (Node.step pf) (network j) (eventsOf j acts) : List Bytes)

/-- The frames that a run reads for a node. -/
def framesFor (dest : Node → Bytes → Ptr → U32) (j : ι) : Multiset Bytes :=
  forNode peers j
    (trace (fun net act => reads dest (net act.1) act.2) (overlayStep pf) network acts)

end

section
variable {ι : Type} [DecidableEq ι] {pf : Platform} {peers : U32 → Set ι}
variable [∀ dest, DecidablePred (· ∈ peers dest)] {network : ι → Node} {acts : List (ι × NodeEvent)}

/-- The messages that are sent for a node are those of the frames read for it. -/
theorem sentFor_eq (hbuffer : ∀ i, BufferFits (network i)) (j : ι) :
    sentFor pf peers network acts j =
      (framesFor pf peers network acts dispatched j).map message := by
  have hinv : ∀ (net : ι → Node) (act : ι × NodeEvent), (∀ i, BufferFits (net i)) → True →
      ∀ i, BufferFits (overlayStep pf net act i) := fun net act hnet _ =>
    familyStep_forall (I := fun _ => BufferFits) hnet (bufferFits_step pf _ _ (hnet act.1))
  have hall : EachStep (overlayStep pf) (fun _ _ => True) network acts := fun _ _ _ _ => trivial
  have htrace : trace (fun net act => sends pf (net act.1) act.2) (overlayStep pf) network acts =
      (trace (fun net act => reads dispatched (net act.1) act.2) (overlayStep pf) network acts).map
        fun o => (o.1, message o.2) :=
    trace_map hbuffer hinv (fun net act hnet => sends_eq pf _ _ (hnet act.1)) hall
  rw [sentFor, htrace, forNode_messages, framesFor]

theorem isMessage_sentFor (hbuffer : ∀ i, BufferFits (network i)) {j : ι} {msg : Bytes}
    (h : msg ∈ sentFor pf peers network acts j) : IsMessage msg := by
  rw [sentFor_eq hbuffer] at h
  obtain ⟨data, hdata, rfl⟩ := Multiset.mem_map.mp h
  obtain ⟨o, ho, rfl⟩ := List.mem_map.mp (Multiset.mem_coe.mp hdata)
  obtain ⟨net, act, hread⟩ := mem_trace (List.mem_of_mem_filter ho)
  unfold reads at hread
  split at hread
  · rename_i frame behind _
    split at hread
    · cases List.mem_singleton.mp hread
      exact ⟨frame, rfl⟩
    · cases hread
  · cases hread

/-- A node has written the frames of the messages that its device has taken. -/
theorem written_run {j : ι} (hbuffer : BufferFits (network j))
    (hfd : (network j).server.tunTapDevFd ≠ 0)
    (h : ∀ msg ∈ handedTo pf network acts j, IsMessage msg) :
    ((run (overlayStep pf) network acts j).written : Multiset Bytes) =
      (network j).written + (handedTo pf network acts j).map frameOf := by
  have hstart : Framed (network j) (network j) := ⟨rfl, hbuffer⟩
  have hlog := run_log hstart (framed_step pf)
    (fun n e hframed hmsgs => written_step pf n e ?_ hmsgs) h
  · rw [overlayStep, run_familyStep, hlog, handedTo, Multiset.map_coe, Multiset.coe_add]
  · have hsame : n.server.tunTapDevFd = (network j).server.tunTapDevFd :=
      congrArg (fun s => s.tunTapDevFd) hframed.frame
    rwa [hsame]

/-- **Each frame once.** In any run of the overlay, with any interleaving, when
the messages that a node with an open device is handed and writes, and those that
are lost, still held back or refused by the device, are just the messages that
were on their way and those that are sent for it, then what it has written, with
the frames in the lost messages, is what it had written before, with the frames
that were on their way and those that are read for it: no frame is made up,
changed or repeated. -/
theorem frames_accounted (hbuffer : ∀ i, BufferFits (network i)) {j : ι}
    (hfd : (network j).server.tunTapDevFd ≠ 0) {waiting lost : Multiset Bytes}
    (hwaiting : ∀ msg ∈ waiting, IsMessage msg)
    (h : handedTo pf network acts j + lost = waiting + sentFor pf peers network acts j) :
    ((run (overlayStep pf) network acts j).written : Multiset Bytes) + lost.map frameOf =
      (network j).written + (waiting.map frameOf +
        framesFor pf peers network acts dispatched j) := by
  have hhanded : ∀ msg ∈ handedTo pf network acts j, IsMessage msg := by
    intro msg hmsg
    have hboth : msg ∈ waiting + sentFor pf peers network acts j := by
      rw [← h]
      exact Multiset.mem_add.mpr (.inl hmsg)
    rcases Multiset.mem_add.mp hboth with hearly | hsent
    · exact hwaiting msg hearly
    · exact isMessage_sentFor hbuffer hsent
  have hframes : (sentFor pf peers network acts j).map frameOf =
      framesFor pf peers network acts dispatched j := by
    rw [sentFor_eq hbuffer, Multiset.map_map]
    exact (Multiset.map_congr rfl fun data _ => frameOf_message data).trans (Multiset.map_id _)
  rw [written_run (hbuffer j) hfd hhanded, add_assoc, ← Multiset.map_add, h, Multiset.map_add,
    hframes]

/-! ## After the last list -/

end

/-! ## Two nodes -/

instance (dest : U32) : DecidablePred (· ∈ pairPeers dest) :=
  fun i => inferInstanceAs (Decidable (i = true ∧ dest = 2))

/-- The first reads the packet twice, and the second is handed it once. -/
def lossyRun : List (Bool × NodeEvent) :=
  [(false, .readable (some packet) fun _ => 0),
    (true, .route (Ptr.ofBytes (messageOf packet)) 24 accepting),
    (false, .readable (some packet) fun _ => 0)]

theorem pair_fits (i : Bool) : BufferFits (pair i) := (pair_fresh i).buffer

theorem pair_frames_accounted :
    ((run (overlayStep ⟨wire, id⟩) pair lossyRun true).written : Multiset Bytes) +
        Multiset.map frameOf {messageOf packet} =
      (pair true).written + (Multiset.map frameOf 0 +
        framesFor ⟨wire, id⟩ pairPeers pair lossyRun dispatched true) :=
  frames_accounted pair_fits (by decide) (fun _ h => absurd h (Multiset.notMem_zero _))
    (by decide +kernel)

end Cpe.Proofs.FrameAccounts
