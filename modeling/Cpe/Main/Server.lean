import Cpe.Lib.MemoTable
import Cpe.Main.Config
import Cpe.Pro.Messages
import Mathlib.Data.Finset.Basic

/-! # The server's state

The members of `class Server` that packets and session messages read or
change, with the kernel routes on its device. What the C++ takes from outside
the program is a `Platform`: the parsers it is linked with, and the value of
`1 << n` for amounts the language leaves undefined. -/
namespace Cpe.Main
open Cpe.Lib.ByteOrder Cpe.Lib.CString Cpe.Lib.Number Cpe.Lib.InetAddr Cpe.Lib.MemoTable
open Cpe.Pro

structure CpeNode where
  nodeID : U32
  nodeVirtualIP : U32
  nodeSubnetIPLow : U32
  nodeSubnetIPHigh : U32
  nodeSubnet : Bytes
  nodeMacAddr : Bytes
deriving DecidableEq, Repr

/-- A kernel route on the device. The kernel refuses a network with host bits,
so there is no route with any. -/
structure Route where
  network : U32
  netmask : U32
  noHostBits : network &&& ~~~netmask = 0#32
deriving DecidableEq

structure Server where
  tunTapDevFd : U32
  gatewayId : U32
  nodeId : Bytes
  config : MzConfig
  ip2nodeidCache : Memo U32 U32
  cpes : List CpeNode
  routes : Finset Route

structure Platform where
  proto : Protobuf
  undefinedShift : U32 → U32

/-- `1 << n` for an `int` amount. -/
def Platform.shl1 (pf : Platform) (n : U32) : U32 :=
  if n < 32 then 1#32 <<< n else pf.undefinedShift n

/-! ## Routes -/

def Route.of? (network netmask : U32) : Option Route :=
  if h : network &&& ~~~netmask = 0#32 then some ⟨network, netmask, h⟩ else none

/-- The route the ioctls build from their two texts. -/
def routeOf (target dstMask : Bytes) : Option Route :=
  Route.of? (htonl (inetAddr target)) (htonl (inetAddr dstMask))

/-- `route_add_net` and `route_del_net`, which differ in the ioctl only: it is
made with the route, or fails and changes nothing. -/
def routeNet (ioctl : Finset Route → Route → Finset Route) (target dstMask : Bytes)
    (routes : Finset Route) : Finset Route :=
  match routeOf target dstMask with
  | some r => ioctl routes r
  | none => routes

def routeAddNet : Bytes → Bytes → Finset Route → Finset Route :=
  routeNet fun routes r => insert r routes

def routeDelNet : Bytes → Bytes → Finset Route → Finset Route :=
  routeNet fun routes r => routes.erase r

/-- The loop that clears the low `32 - netmask` bits of a `bitset<32>`. -/
def bitsetMask (netmask : U32) : U32 :=
  (List.range (32 - netmask.toNat)).foldl (fun mask i => mask &&& ~~~(1#32 <<< i)) 0xffffffff

/-- The address text and the prefix length of one entry of a subnet list;
`none` is a `continue` of the loops over the list. -/
def netMeta (net : Bytes) : Option (Bytes × U32) :=
  match split net (str "/") with
  | [subnet, bits] => if atoi bits > 32 then none else some (subnet, atoi bits)
  | _ => none

/-- The loop of `add_route_for_nodes` and `del_route_for_nodes`, which differ
in the route call only. -/
def Server.routeForNodes (route : Bytes → Bytes → Finset Route → Finset Route) (s : Server) :
    Server :=
  s.cpes.foldl (fun s node =>
    if atoi s.nodeId = node.nodeID then s
    else (split node.nodeSubnet (str ",")).foldl (fun s net =>
      match netMeta net with
      | none => s
      | some (subnet, netmask) =>
        { s with routes := route subnet (valueToIP (bitsetMask netmask)) s.routes }) s) s

def Server.addRouteForNodes (s : Server) : Server := s.routeForNodes routeAddNet

def Server.delRouteForNodes (s : Server) : Server := s.routeForNodes routeDelNet

/-! ## The node table and construction -/

def Server.clearCpes (s : Server) : Server := { s with cpes := [] }

def Server.pushCpe (s : Server) (node : CpeNode) : Server := { s with cpes := s.cpes ++ [node] }

/-- The node `init_mesh_cpes` makes of one entry. -/
def meshNode (pf : Platform) (itor : NodeInfo) : CpeNode :=
  let ipCount := pf.shl1 (32 - itor.netMask) - 1
  let subnetIPLow := htonl (inetAddr itor.subNet)
  { nodeID := itor.nodeID
    nodeVirtualIP := htonl (inetAddr itor.virtualIP)
    nodeSubnet := itor.subNet
    nodeSubnetIPLow := subnetIPLow
    nodeSubnetIPHigh := subnetIPLow + ipCount
    nodeMacAddr := itor.macAddr }

def Server.initMeshCpes (pf : Platform) (s : Server) : Server :=
  s.config.nodeInfoList.foldl (fun s itor => s.pushCpe (meshNode pf itor)) s.clearCpes

/-- `to_string` of an `int`. -/
def intText (n : U32) : Bytes :=
  if n.toInt < 0 then str "-" ++ decimal n.toInt.natAbs else decimal n.toNat

/-- The constructor, on an open device without routes. -/
def Server.create (pf : Platform) (fd id : U32) (config : MzConfig) : Server :=
  Server.addRouteForNodes <| Server.initMeshCpes pf
    { tunTapDevFd := fd
      gatewayId := 0
      nodeId := intText id
      config := config
      ip2nodeidCache := Memo.empty
      cpes := []
      routes := ∅ }

def Server.setGatewayId (s : Server) (id : U32) : Server := { s with gatewayId := id }

end Cpe.Main
