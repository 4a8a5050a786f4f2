import Cpe.Lib.Access
import Cpe.Main.Device

/-! # What a dispatch reads

The two dispatchers as programs that read the packet byte by byte, in the order
of the source. They copy the fields out of the packet first and look at their
copies from then on. -/
namespace Cpe.Main
open Cpe.Lib.ByteOrder Cpe.Lib.Access

/-- What `getDestIDFromTapPacket` copies out of a frame: the two fields of the
Ethernet header, and of an IPv4 frame `ip_proto` and the destination. -/
structure TapFields where
  destMacAddr : Bytes
  proto : U16
  ip : Option (Byte × U32)
deriving DecidableEq, Repr

def tapFields : Reads TapFields := do
  let destMacAddr ← slice 0 6
  let proto ← load16 12
  if htons proto = ETH_P_IP then
    let ipProto ← peek (12 + 9)
    let destIP ← load32 (14 + 16)
    return ⟨destMacAddr, htons proto, some (ipProto, htonl destIP)⟩
  else return ⟨destMacAddr, htons proto, none⟩

/-- `getDestIDFromTapPacket` behind its copies. -/
def Server.tapDest (s : Server) (fields : TapFields) : U32 × Server :=
  match fields.ip with
  | some (_, destIP) =>
    if destIP < 0xE0000000 then
      let destID := s.getNodeIDFromIP destIP fields.destMacAddr
      (destID, s.cacheDest destIP destID)
    else if destIP > 0xE0000000 ∧ destIP < 0xF0000000 then (0xFFFFFFFF, s)
    else if destIP > 0xF0000000 then (0xFFFFFFFF, s)
    else (0, s)
  | none =>
    if fields.proto = ETH_P_ARP ∨ fields.proto = ETH_P_RARP ∨ fields.proto = ETH_P_IPX ∨
        fields.proto = ETH_P_PPP_DISC ∨ fields.proto = ETH_P_PPP_SES then (0xFFFFFFFF, s)
    else (0, s)

/-- `getDestIDFromTunPacket` behind its copy. -/
def Server.tunDest (s : Server) (destIP : U32) : U32 × Server :=
  let destID := s.getNodeIDFromIP destIP defaultMac
  (destID, s.cacheDest destIP destID)

/-- The dispatch of `handle_packet_from_dev`. -/
def Server.dispatchReads (s : Server) : Reads (U32 × Server) :=
  if s.config.onlyAcc ≠ 0 then return (s.gatewayId, s)
  else if s.config.tapMode ≠ 0 then do
    let fields ← tapFields
    return s.tapDest fields
  else do
    let destIP ← load32 16
    return s.tunDest (htonl destIP)

theorem tapFields_run (packet : Ptr) :
    tapFields.run packet =
      ⟨tapDestMac packet, tapProto packet,
        if tapProto packet = ETH_P_IP then some (packet (12 + 9), tapDestIP packet) else none⟩ := by
  unfold tapFields
  rw [run_bind, run_bind, run_slice, run_load16]
  by_cases hproto : tapProto packet = ETH_P_IP
  · rw [if_pos hproto, if_pos (show htons (packet.load16 12) = ETH_P_IP from hproto)]
    rfl
  · rw [if_neg hproto, if_neg (show ¬ htons (packet.load16 12) = ETH_P_IP from hproto)]
    rfl

theorem tapFields_offsets (packet : Ptr) :
    tapFields.offsets packet =
      List.range' 0 6 ++ (List.range' 12 2 ++
        if tapProto packet = ETH_P_IP then (12 + 9) :: List.range' (14 + 16) 4 else []) := by
  unfold tapFields
  rw [offsets_bind, offsets_bind, offsets_slice, offsets_load16, run_load16]
  by_cases hproto : tapProto packet = ETH_P_IP
  · rw [if_pos hproto, if_pos (show htons (packet.load16 12) = ETH_P_IP from hproto)]
    rfl
  · rw [if_neg hproto, if_neg (show ¬ htons (packet.load16 12) = ETH_P_IP from hproto)]
    rfl

/-- The programs compute what the dispatchers do. -/
theorem tapDest_run (s : Server) (packet : Ptr) :
    s.tapDest (tapFields.run packet) = s.getDestIDFromTapPacket packet := by
  rw [tapFields_run]
  unfold Server.tapDest Server.getDestIDFromTapPacket
  by_cases hproto : tapProto packet = ETH_P_IP
  · simp only [hproto, if_true]
  · simp only [hproto, if_false]

theorem handlePacketFromDev_run (s : Server) (behind : Ptr) (msg : Bytes) :
    s.handlePacketFromDev behind msg =
      (((s.dispatchReads.run ((cstrPtr msg behind).add 4)).1, msg),
        (s.dispatchReads.run ((cstrPtr msg behind).add 4)).2) := by
  unfold Server.handlePacketFromDev Server.dispatchReads
  by_cases hacc : s.config.onlyAcc ≠ 0
  · simp only [hacc, ne_eq, not_false_eq_true, if_true]
    rfl
  · by_cases htap : s.config.tapMode ≠ 0
    · simp only [hacc, htap, ne_eq, not_false_eq_true, if_true, if_false, run_bind, tapDest_run]
      rfl
    · simp only [hacc, htap, if_false, run_bind]
      rfl

end Cpe.Main
