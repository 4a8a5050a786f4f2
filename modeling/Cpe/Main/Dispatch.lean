import Cpe.Main.Server

/-! # Packet dispatch

From a packet the device delivered to the id of the peer it is sent to:
`getNodeIDFromIP` and its two callers. A packet is the memory from its first
byte on, so what is read behind its end is whatever is there. -/
namespace Cpe.Main
open Cpe.Lib.ByteOrder Cpe.Lib.CString Cpe.Lib.InetAddr Cpe.Lib.MemoTable

/-- The default of the `mac` parameter. -/
def defaultMac : Bytes := str "00:00:00:00:00:00"

/-- The loop over the entries of one subnet list: does one of them cover `ip`? -/
def matchNets (ip : U32) : List Bytes → Bool
  | [] => false
  | net :: nets =>
    match netMeta net with
    | none => matchNets ip nets
    | some (subnet, netmask) =>
      if ip &&& bitsetMask netmask = htonl (inetAddr subnet) then true else matchNets ip nets

/-- The loop over the nodes and what follows it. -/
def Server.scanCpes (s : Server) (ip : U32) (mac : Bytes) : List CpeNode → U32
  | [] => if s.config.gateWay = 0 then s.gatewayId else 0
  | node :: cpes =>
    if ip = node.nodeVirtualIP then node.nodeID
    else if matchNets ip (split node.nodeSubnet (str ",")) then node.nodeID
    else if s.config.tapMode ≠ 0 ∧ mac = node.nodeMacAddr then node.nodeID
    else s.scanCpes ip mac cpes

def Server.getNodeIDFromIP (s : Server) (ip : U32) (mac : Bytes) : U32 :=
  if s.config.onlyAcc = 1 then s.gatewayId
  else match s.ip2nodeidCache ip with
    | some nodeId => nodeId
    | none => s.scanCpes ip mac s.cpes

/-- What both callers do with a looked-up id. -/
def Server.cacheDest (s : Server) (ip destID : U32) : Server :=
  if destID ≠ 0 ∧ destID ≠ s.gatewayId ∧ s.ip2nodeidCache ip = none then
    { s with ip2nodeidCache := Function.update s.ip2nodeidCache ip (some destID) }
  else s

/-- The destination address of an IPv4 packet. -/
def tunDestIP (packet : Ptr) : U32 := htonl (packet.load32 16)

def Server.getDestIDFromTunPacket (s : Server) (packet : Ptr) : U32 × Server :=
  let destID := s.getNodeIDFromIP (tunDestIP packet) defaultMac
  (destID, s.cacheDest (tunDestIP packet) destID)

def ETH_P_IP : U16 := 0x0800
def ETH_P_ARP : U16 := 0x0806
def ETH_P_RARP : U16 := 0x8035
def ETH_P_IPX : U16 := 0x8137
def ETH_P_PPP_DISC : U16 := 0x8863
def ETH_P_PPP_SES : U16 := 0x8864

def tapDestMac (packet : Ptr) : Bytes := packet.slice 0 6

def tapProto (packet : Ptr) : U16 := htons (packet.load16 12)

def tapDestIP (packet : Ptr) : U32 := htonl (packet.load32 30)

def Server.getDestIDFromTapPacket (s : Server) (packet : Ptr) : U32 × Server :=
  let proto := tapProto packet
  let destIP := tapDestIP packet
  if proto = ETH_P_IP then
    if destIP < 0xE0000000 then
      let destID := s.getNodeIDFromIP destIP (tapDestMac packet)
      (destID, s.cacheDest destIP destID)
    else if destIP > 0xE0000000 ∧ destIP < 0xF0000000 then (0xFFFFFFFF, s)
    else if destIP > 0xF0000000 then (0xFFFFFFFF, s)
    else (0, s)
  else if proto = ETH_P_ARP ∨ proto = ETH_P_RARP ∨ proto = ETH_P_IPX ∨
      proto = ETH_P_PPP_DISC ∨ proto = ETH_P_PPP_SES then (0xFFFFFFFF, s)
  else (0, s)

end Cpe.Main
