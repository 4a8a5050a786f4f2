import Cpe.Proofs.TapCache

/-! # The classes of Ethernet frames

In TAP mode the EtherType and the destination address of a frame decide where
it goes: it is looked up, flooded, or dropped. The addresses are cut by strict
comparisons, which leave out the two addresses at the ends of the multicast
range. -/
namespace Cpe.Proofs.TapClasses
open Cpe.Lib.ByteOrder Cpe.Lib.CString Cpe.Lib.MemoTable Cpe.Lib.Run Cpe.Pro Cpe.Main
open Cpe.Proofs.TapCache

/-- The id of every peer. -/
def floodId : U32 := 0xFFFFFFFF

/-- The EtherTypes other than IPv4 that go to every peer. -/
def FloodedType (proto : U16) : Prop :=
  proto = ETH_P_ARP ∨ proto = ETH_P_RARP ∨ proto = ETH_P_IPX ∨ proto = ETH_P_PPP_DISC ∨
    proto = ETH_P_PPP_SES

instance (proto : U16) : Decidable (FloodedType proto) := inferInstanceAs (Decidable (_ ∨ _))

def etherType (frame : Bytes) : U16 := net16 frame 12

/-- The destination address of the packet in an IPv4 frame. -/
def frameIP (frame : Bytes) : U32 := net32 frame 30

def frameMac (frame : Bytes) : Bytes := frame.take 6

inductive FrameClass
  | unicast
  | group
  | flooded
  | other
deriving DecidableEq, Repr

/-- The addresses from 224.0.0.0 on are multicast, reserved or broadcast. -/
def classOf (frame : Bytes) : FrameClass :=
  if etherType frame = ETH_P_IP then
    if frameIP frame < 0xE0000000 then .unicast else .group
  else if FloodedType (etherType frame) then .flooded
  else .other

/-- The node a unicast frame is for, by address or by MAC, else the fallback. -/
def frameDest (s : Server) (frame : Bytes) : U32 :=
  ((s.hit (frameIP frame) (frameMac frame) s.cpes).map CpeNode.nodeID).getD s.fallback

/-- A dispatch of a frame goes where its class says. -/
def Classified (s : Server) (frame : Bytes) (packet : Ptr) : Prop :=
  match classOf frame with
  | .unicast => (s.getDestIDFromTapPacket packet).1 = frameDest s frame
  | .group | .flooded => (s.getDestIDFromTapPacket packet).1 = floodId
  | .other => s.getDestIDFromTapPacket packet = (0, s)

/-- The ends of the multicast range, 224.0.0.0 and 240.0.0.0. -/
def RangeEnd (ip : U32) : Prop := ip = 0xE0000000 ∨ ip = 0xF0000000

instance (ip : U32) : Decidable (RangeEnd ip) := inferInstanceAs (Decidable (_ ∨ _))

section
variable {s : Server} {frame : Bytes} {packet : Ptr}

/-- What a dispatch reads of a frame in memory. -/
theorem tapFields_eq (hmem : packet.StartsWith frame) (hsize : 34 ≤ frame.length) :
    tapProto packet = etherType frame ∧ tapDestIP packet = frameIP frame ∧
      tapDestMac packet = frameMac frame := by
  refine ⟨htons_load16 hmem (by omega), htonl_load32 hmem (by omega), ?_⟩
  exact slice_startsWith hmem (by omega)

theorem unicast_dest (hacc : s.config.onlyAcc = 0) (hcache : s.ip2nodeidCache = Memo.empty)
    (hmem : packet.StartsWith frame) (hsize : 34 ≤ frame.length)
    (htype : etherType frame = ETH_P_IP) (hip : frameIP frame < 0xE0000000) :
    (s.getDestIDFromTapPacket packet).1 = frameDest s frame := by
  obtain ⟨hproto, hdest, hmac⟩ := tapFields_eq hmem hsize
  have hunicast : Unicast packet := by
    rw [Unicast, hproto, hdest]
    exact ⟨htype, hip⟩
  rw [getDestIDFromTapPacket_eq hacc hunicast, hcache, answer_empty, tapLookup_eq hacc, matchOf,
    hdest, hmac]
  rfl

/-- Behind the unicast addresses the code floods all but the ends of the
multicast range. -/
theorem group_dest (hmem : packet.StartsWith frame) (hsize : 34 ≤ frame.length)
    (htype : etherType frame = ETH_P_IP) (hip : ¬ frameIP frame < 0xE0000000) :
    (s.getDestIDFromTapPacket packet).1 = if RangeEnd (frameIP frame) then 0 else floodId := by
  obtain ⟨hproto, hdest, _⟩ := tapFields_eq hmem hsize
  unfold Server.getDestIDFromTapPacket
  simp only [hproto, hdest, htype, hip, if_true, if_false]
  by_cases hend : RangeEnd (frameIP frame)
  · rw [if_pos hend]
    rcases hend with hlow | hhigh
    · rw [hlow]
      rfl
    · rw [hhigh]
      rfl
  · rw [if_neg hend]
    obtain ⟨hlow, hhigh⟩ := not_or.mp hend
    by_cases hmid : frameIP frame < 0xF0000000
    · have habove : frameIP frame > 0xE0000000 := by bv_omega
      rw [if_pos ⟨habove, hmid⟩]
      rfl
    · have habove : frameIP frame > 0xF0000000 := by bv_omega
      rw [if_neg (fun h => hmid h.2), if_pos habove]
      rfl

/-- The EtherTypes other than IPv4. -/
theorem link_dest (hmem : packet.StartsWith frame) (hsize : 34 ≤ frame.length)
    (htype : etherType frame ≠ ETH_P_IP) :
    s.getDestIDFromTapPacket packet =
      (if FloodedType (etherType frame) then floodId else 0, s) := by
  obtain ⟨hproto, _, _⟩ := tapFields_eq hmem hsize
  unfold Server.getDestIDFromTapPacket
  simp only [hproto, htype, if_false]
  by_cases hlink : FloodedType (etherType frame)
  · rw [if_pos hlink]
    exact if_pos hlink
  · rw [if_neg hlink]
    exact if_neg hlink

end

/-- **A frame goes where its class says** exactly if it is no IPv4 frame to an
end of the multicast range. -/
theorem classified_iff (s : Server) (frame : Bytes) (packet : Ptr)
    (hmem : packet.StartsWith frame) (hsize : 34 ≤ frame.length)
    (hacc : s.config.onlyAcc = 0) (hcache : s.ip2nodeidCache = Memo.empty) :
    Classified s frame packet ↔ ¬ (etherType frame = ETH_P_IP ∧ RangeEnd (frameIP frame)) := by
  unfold Classified classOf
  by_cases htype : etherType frame = ETH_P_IP
  · by_cases hip : frameIP frame < 0xE0000000
    · have hend : ¬ RangeEnd (frameIP frame) := by
        intro hend
        rcases hend with h | h
        · bv_omega
        · bv_omega
      simp only [htype, hip, hend, if_true, and_false, not_false_eq_true, iff_true]
      exact unicast_dest hacc hcache hmem hsize htype hip
    · simp only [htype, hip, if_true, if_false, true_and, group_dest hmem hsize htype hip]
      by_cases hend : RangeEnd (frameIP frame)
      · simp [hend, floodId]
      · simp [hend]
  · simp only [htype, if_false, false_and, not_false_eq_true, iff_true]
    by_cases hlink : FloodedType (etherType frame)
    · simp only [hlink, if_true, link_dest hmem hsize htype]
    · simp only [hlink, if_false, link_dest hmem hsize htype]

/-! ## 224.0.0.0 -/

/-- An IPv4 frame of 34 bytes. -/
def ipFrame (mac : Bytes) (ip : U32) : Bytes :=
  mac ++ List.replicate 6 0 ++ [8, 0] ++ List.replicate 16 0 ++ bytes32 (htonl ip)

/-- A server in TAP mode without peers. -/
def aloneInTap : Server := started ⟨wire, id⟩ 3 1 { tapMode := 1 } 9

/-- A frame to 224.0.0.0 is dropped. -/
theorem all_systems_base_dropped :
    ¬ Classified aloneInTap (ipFrame (List.replicate 6 255) 0xE0000000)
      (Ptr.ofBytes (ipFrame (List.replicate 6 255) 0xE0000000)) := by
  have hclass : classOf (ipFrame (List.replicate 6 255) 0xE0000000) = .group := by decide +kernel
  intro h
  rw [Classified, hclass] at h
  exact absurd h (by decide +kernel)

/-- A frame to 224.0.0.1 is flooded. -/
theorem all_systems_flooded :
    Classified aloneInTap (ipFrame (List.replicate 6 255) 0xE0000001)
      (Ptr.ofBytes (ipFrame (List.replicate 6 255) 0xE0000001)) :=
  (classified_iff aloneInTap (ipFrame (List.replicate 6 255) 0xE0000001)
    (Ptr.ofBytes (ipFrame (List.replicate 6 255) 0xE0000001)) (ofBytes_startsWith _)
    (by decide) rfl rfl).mpr (by decide)

end Cpe.Proofs.TapClasses
