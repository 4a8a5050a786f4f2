import Cpe.Main.Runs

/-! # Packets of other protocols in TUN mode

A tun device delivers every protocol the kernel routes into it. The TUN
dispatch does not look at the version of a packet: it routes by the four bytes
at the place of an IPv4 destination, which are source address bytes of an IPv6
packet. -/
namespace Cpe.Proofs.ForeignPackets
open Cpe.Lib.ByteOrder Cpe.Lib.CString Cpe.Lib.MemoTable Cpe.Pro Cpe.Main

/-- The version nibble of a packet. -/
def version (packet : Bytes) : Byte := packet.getD 0 0 >>> 4

/-- A packet that is long enough for the device path and is no IPv4 packet. -/
structure ForeignPacket where
  bytes : Bytes
  size : 20 ≤ bytes.length
  not_ipv4 : version bytes ≠ 4

/-- What the TUN dispatch takes as the destination of the packet. -/
def ForeignPacket.key (p : ForeignPacket) : U32 := net32 p.bytes 16

/-- An address that nothing in the state leads to a peer: the answer is the
gateway's id where there is no gateway, the remembered id, the id of the first
node, or the fallback, and it is 0. -/
def Unrouted (s : Server) (ip : U32) : Prop :=
  if s.config.onlyAcc = 1 then s.gatewayId = 0
  else match s.ip2nodeidCache ip with
    | some nodeId => nodeId = 0
    | none => match s.hit ip defaultMac s.cpes with
      | some node => node.nodeID = 0
      | none => s.config.gateWay ≠ 0 ∨ s.gatewayId = 0

theorem lookup_zero_iff (s : Server) (ip : U32) :
    s.getNodeIDFromIP ip defaultMac = 0 ↔ Unrouted s ip := by
  unfold Server.getNodeIDFromIP Unrouted
  by_cases hacc : s.config.onlyAcc = 1
  · rw [if_pos hacc, if_pos hacc]
  · rw [if_neg hacc, if_neg hacc]
    cases hcache : s.ip2nodeidCache ip with
    | some nodeId => exact Iff.rfl
    | none =>
      simp only [scanCpes_eq]
      cases hhit : s.hit ip defaultMac s.cpes with
      | some node => simp
      | none =>
        rw [Option.map_none, Option.getD_none, Server.fallback]
        by_cases hgate : s.config.gateWay = 0
        · simp [hgate]
        · rw [if_neg hgate]
          exact ⟨fun _ => .inl hgate, fun _ => rfl⟩

instance (s : Server) (ip : U32) : Decidable (Unrouted s ip) :=
  decidable_of_iff _ (lookup_zero_iff s ip)

/-- An answer of 0 is not remembered. -/
theorem cacheDest_zero (s : Server) (ip : U32) : s.cacheDest ip 0 = s :=
  if_neg fun h => h.1 rfl

theorem dispatch_zero_iff (s : Server) (packet : Ptr) :
    s.getDestIDFromTunPacket packet = (0, s) ↔ Unrouted s (tunDestIP packet) := by
  rw [← lookup_zero_iff]
  unfold Server.getDestIDFromTunPacket
  constructor
  · intro h
    exact congrArg Prod.fst h
  · intro h
    simp only [h, cacheDest_zero]

/-- **A packet of another protocol is dropped**, and the cache left alone,
exactly if its bytes 16 to 19, taken as an address, lead to no peer. -/
theorem foreign_dropped_iff (s : Server) (p : ForeignPacket) (mem : Ptr)
    (hmem : mem.StartsWith p.bytes) :
    s.getDestIDFromTunPacket mem = (0, s) ↔ Unrouted s p.key := by
  have hsize := p.size
  have hkey : tunDestIP mem = p.key := htonl_load32 hmem (by omega)
  rw [dispatch_zero_iff, hkey]

/-! ## A source address that looks like a peer -/

/-- A server in TUN mode with a peer at 10.0.0.2. -/
def onePeer : Server :=
  { started ⟨wire, id⟩ 3 1 { gateWay := 1 } 9 with
    cpes := [⟨2, 0x0a000002, 0x0a000002, 0x0a000002, [], []⟩] }

/-- The header of an IPv6 packet from `fe80::` and the given second half. -/
def ipv6From (interface : Bytes) : Bytes :=
  [0x60, 0, 0, 0, 0, 0, 59, 64] ++ [0xfe, 0x80, 0, 0, 0, 0, 0, 0] ++ interface ++
    [0xff, 2] ++ List.replicate 13 0 ++ [1]

/-- The second half of its source starts with the peer's address. -/
def likePeer : ForeignPacket where
  bytes := ipv6From [10, 0, 0, 2, 0, 0, 0, 1]
  size := by decide
  not_ipv4 := by decide

/-- The second half is another one. -/
def unlikePeer : ForeignPacket where
  bytes := ipv6From [10, 0, 0, 3, 0, 0, 0, 1]
  size := by decide
  not_ipv4 := by decide

/-- The packet goes to the peer, and the next packet to 10.0.0.2 is answered
from what it left in the cache. -/
theorem ipv6_reaches_peer :
    onePeer.getDestIDFromTunPacket (Ptr.ofBytes likePeer.bytes) ≠ (0, onePeer) ∧
      (onePeer.getDestIDFromTunPacket (Ptr.ofBytes likePeer.bytes)).1 = 2 ∧
      (onePeer.getDestIDFromTunPacket (Ptr.ofBytes likePeer.bytes)).2.ip2nodeidCache 0x0a000002 =
        some 2 := by
  have hdest : (onePeer.getDestIDFromTunPacket (Ptr.ofBytes likePeer.bytes)).1 = 2 := by
    decide +kernel
  refine ⟨?_, hdest, by decide +kernel⟩
  intro h
  rw [h] at hdest
  cases hdest

theorem ipv6_dropped :
    onePeer.getDestIDFromTunPacket (Ptr.ofBytes unlikePeer.bytes) = (0, onePeer) :=
  (foreign_dropped_iff onePeer unlikePeer (Ptr.ofBytes unlikePeer.bytes)
    (ofBytes_startsWith _)).mpr (by decide +kernel)

end Cpe.Proofs.ForeignPackets
