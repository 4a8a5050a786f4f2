import Cpe.Proofs.TapClasses
import Mathlib.Data.List.Find

/-! # TUN and TAP dispatch agree on IPv4 unicast

A packet in TUN mode and the frame around it in TAP mode are dispatched by two
parsers. As long as no frame carries the MAC of a peer, both look up the same
address, so the two servers stay in step. -/
namespace Cpe.Proofs.TunTapAgree
open Cpe.Lib.ByteOrder Cpe.Lib.CString Cpe.Lib.MemoTable Cpe.Lib.Run Cpe.Pro Cpe.Main
open Cpe.Proofs.TapCache Cpe.Proofs.TapClasses

/-- An IPv4 packet, as the TUN device and, behind a header, the TAP device
deliver it. -/
structure Delivery where
  packet : Bytes
  header : Bytes
  tunMem : Ptr
  tapMem : Ptr
  packet_size : 20 ≤ packet.length
  header_size : header.length = 14
  ipv4 : net16 header 12 = ETH_P_IP
  unicast : net32 packet 16 < 0xE0000000
  tun_starts : tunMem.StartsWith packet
  tap_starts : tapMem.StartsWith (header ++ packet)

/-- Two servers that differ in their mode: table, gateway and cache are the
same. -/
structure InStep (tun tap : Server) : Prop where
  tunMode : tun.TunMode
  tapMode : tap.config.tapMode ≠ 0
  tapAcc : tap.config.onlyAcc = 0
  cpes : tap.cpes = tun.cpes
  gatewayId : tap.gatewayId = tun.gatewayId
  gateWay : tap.config.gateWay = tun.config.gateWay
  cache : tap.ip2nodeidCache = tun.ip2nodeidCache

section
variable {tun tap : Server} {d : Delivery}

theorem tunDestIP_tunMem (d : Delivery) : tunDestIP d.tunMem = net32 d.packet 16 :=
  htonl_load32 d.tun_starts d.packet_size

/-- The TAP parser reads the address of the packet behind the header. -/
theorem tapDestIP_tapMem (d : Delivery) : tapDestIP d.tapMem = net32 d.packet 16 := by
  have hsize : 30 + 4 ≤ (d.header ++ d.packet).length := by
    have := d.packet_size
    rw [List.length_append, d.header_size]
    omega
  have hfield : net32 (d.header ++ d.packet) (d.header.length + 16) = net32 d.packet 16 :=
    net32_append d.header 16
  rw [d.header_size] at hfield
  rw [tapDestIP, htonl_load32 d.tap_starts hsize]
  exact hfield

theorem tapProto_tapMem (d : Delivery) : tapProto d.tapMem = ETH_P_IP := by
  have hsize : 12 + 2 ≤ (d.header ++ d.packet).length := by
    rw [List.length_append, d.header_size]
    omega
  rw [tapProto, htons_load16 d.tap_starts hsize, net16,
    List.getD_append _ _ _ _ (by rw [d.header_size]; decide),
    List.getD_append _ _ _ _ (by rw [d.header_size]; decide)]
  exact d.ipv4

theorem tapDestMac_tapMem (d : Delivery) : tapDestMac d.tapMem = d.header.take 6 := by
  have hsize : 0 + 6 ≤ (d.header ++ d.packet).length := by
    rw [List.length_append, d.header_size]
    omega
  rw [tapDestMac, slice_startsWith d.tap_starts hsize, List.drop_zero,
    List.take_append_of_le_length (by rw [d.header_size]; decide)]

theorem tapMem_unicast (d : Delivery) : Unicast d.tapMem := by
  rw [Unicast, tapDestIP_tapMem]
  exact ⟨tapProto_tapMem d, d.unicast⟩

/-- A MAC that no node has plays no part in the scan. -/
theorem hit_of_no_mac {s : Server} {ip : U32} {mac : Bytes} {cpes : List CpeNode}
    (h : ∀ node ∈ cpes, mac ≠ node.nodeMacAddr) : s.hit ip mac cpes = owner cpes ip := by
  apply List.find?_congr
  intro node hnode
  apply decide_eq_decide.mpr
  constructor
  · intro hhits
    rcases hhits with hcovers | ⟨_, hmac⟩
    · exact hcovers
    · exact absurd hmac (h node hnode)
  · exact Or.inl

/-- Both modes look the same address up. -/
theorem lookup_agree (h : InStep tun tap)
    (hmac : ∀ node ∈ tun.cpes, d.header.take 6 ≠ node.nodeMacAddr) :
    tapLookup tap d.tapMem = tun.tunLookup (tunDestIP d.tunMem) := by
  have hfallback : tap.fallback = tun.fallback := by
    rw [Server.fallback, Server.fallback, h.gateWay, h.gatewayId]
  rw [tapLookup_eq h.tapAcc, tunLookup_eq h.tunMode, matchOf, tapDestIP_tapMem, tapDestMac_tapMem,
    tunDestIP_tunMem, h.cpes, hit_of_no_mac hmac, hfallback]

/-- One dispatch in both modes: the same destination, and the same cache behind
it. -/
theorem dispatch_agree (h : InStep tun tap)
    (hmac : ∀ node ∈ tun.cpes, d.header.take 6 ≠ node.nodeMacAddr) :
    (tun.getDestIDFromTunPacket d.tunMem).1 = (tap.getDestIDFromTapPacket d.tapMem).1 ∧
      InStep (tun.getDestIDFromTunPacket d.tunMem).2 (tap.getDestIDFromTapPacket d.tapMem).2 := by
  have hip : tapDestIP d.tapMem = tunDestIP d.tunMem := by
    rw [tapDestIP_tapMem, tunDestIP_tunMem]
  rw [getDestIDFromTunPacket_eq h.tunMode, getDestIDFromTapPacket_eq h.tapAcc (tapMem_unicast d),
    lookup_agree h hmac, hip, h.cache, h.gatewayId]
  exact ⟨rfl, h.tunMode, h.tapMode, h.tapAcc, h.cpes, rfl, h.gateWay, rfl⟩

theorem getDestIDFromTunPacket_cpes (tun : Server) (packet : Ptr) :
    (tun.getDestIDFromTunPacket packet).2.cpes = tun.cpes := by
  obtain ⟨m, hm⟩ := tunStep_cache tun packet
  rw [Server.tunStep] at hm
  rw [hm]

end

/-- **TUN and TAP dispatch agree**: the destinations of the packets are those of
the frames around them, and the caches are equal after every step. -/
theorem tun_tap_agree (tun tap : Server) (h : InStep tun tap) (ds : List Delivery)
    (hmacs : ∀ d ∈ ds, ∀ node ∈ tun.cpes, d.header.take 6 ≠ node.nodeMacAddr) :
    (outputs Server.getDestIDFromTunPacket tun (ds.map Delivery.tunMem)).map
        (fun o => (o.1, o.2.ip2nodeidCache)) =
      (outputs Server.getDestIDFromTapPacket tap (ds.map Delivery.tapMem)).map
        (fun o => (o.1, o.2.ip2nodeidCache)) := by
  have hstart : InStep tun tap ∧ tun.cpes = tun.cpes := ⟨h, rfl⟩
  apply outputs_lockstep (R := fun s t => InStep s t ∧ s.cpes = tun.cpes) hstart
  · intro s t hr
    exact hr.1.cache.symm
  · intro s t d hd hr
    obtain ⟨hin, hcpes⟩ := hr
    have hmac : ∀ node ∈ s.cpes, d.header.take 6 ≠ node.nodeMacAddr := by
      rw [hcpes]
      exact hmacs d hd
    obtain ⟨hdest, hnext⟩ := dispatch_agree hin hmac
    exact ⟨hdest, hnext, (getDestIDFromTunPacket_cpes s d.tunMem).trans hcpes⟩

/-! ## Two packets in both modes -/

/-- The two servers of a configuration with a mesh peer at 10.0.0.2. -/
def serverIn (tapMode : U32) : Server :=
  run (Server.step ⟨wire, id⟩) (started ⟨wire, id⟩ 3 1 { tapMode := tapMode } 9)
    [.meshNotify ⟨[
      { nodeId := 2, virtualIp := str "10.0.0.2", netMask := 32, macAddr := [2, 0, 0, 0, 0, 2] }]⟩]

/-- A packet to the peer, under a broadcast header. -/
def toPeer : Delivery where
  packet := List.replicate 16 0 ++ bytes32 (htonl 0x0a000002)
  header := List.replicate 6 255 ++ List.replicate 6 0 ++ [8, 0]
  tunMem := Ptr.ofBytes (List.replicate 16 0 ++ bytes32 (htonl 0x0a000002))
  tapMem := Ptr.ofBytes ((List.replicate 6 255 ++ List.replicate 6 0 ++ [8, 0]) ++
    (List.replicate 16 0 ++ bytes32 (htonl 0x0a000002)))
  packet_size := by decide
  header_size := by decide
  ipv4 := by decide
  unicast := by decide
  tun_starts := ofBytes_startsWith _
  tap_starts := ofBytes_startsWith _

/-- Both modes send it to the peer, and a second one from the cache. -/
theorem peer_packets_agree :
    (outputs Server.getDestIDFromTunPacket (serverIn 0) ([toPeer, toPeer].map Delivery.tunMem)).map
        (fun o => (o.1, o.2.ip2nodeidCache)) =
      (outputs Server.getDestIDFromTapPacket (serverIn 1)
          ([toPeer, toPeer].map Delivery.tapMem)).map
        (fun o => (o.1, o.2.ip2nodeidCache)) :=
  tun_tap_agree (serverIn 0) (serverIn 1)
    { tunMode := ⟨by decide +kernel, by decide +kernel⟩
      tapMode := by decide +kernel
      tapAcc := by decide +kernel
      cpes := by decide +kernel
      gatewayId := by decide +kernel
      gateWay := by decide +kernel
      cache := rfl }
    [toPeer, toPeer] (by decide +kernel)

end Cpe.Proofs.TunTapAgree
