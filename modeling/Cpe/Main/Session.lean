import Cpe.Main.Server

/-! # Session messages

The handlers of the network thread: framing, the outer message, and the two
node lists. `handle_mesh_notify` is a sequence of four statement groups and
both rebuilds of the node table a sequence of `clear` and `push_back`; they are
steps of their own, so that other threads can be put between them. -/
namespace Cpe.Main
open Cpe.Lib.ByteOrder Cpe.Lib.CString Cpe.Lib.Number Cpe.Lib.InetAddr Cpe.Lib.MemoTable
open Cpe.Pro

inductive MESSAGETYPE
  | MESSAGE_ROUTE
  | MESSAGE_LOGIN_TCP
  | MESSAGE_LOGIN_TCP_RES
  | MESSAGE_LOGIN_UDP
  | MESSAGE_LOGIN_UDP_RES
  | MESSAGE_KEEPALIVE_TCP
  | MESSAGE_KEEPALIVE_TCP_RES
  | MESSAGE_KEEPALIVE_UDP
  | MESSAGE_KEEPALIVE_UDP_RES
  | MESSAGE_CPE_CHANGE_NOTIFY
deriving DecidableEq, Repr

def MESSAGETYPE.value : MESSAGETYPE → U16
  | .MESSAGE_ROUTE => 0
  | .MESSAGE_LOGIN_TCP => 1
  | .MESSAGE_LOGIN_TCP_RES => 2
  | .MESSAGE_LOGIN_UDP => 3
  | .MESSAGE_LOGIN_UDP_RES => 4
  | .MESSAGE_KEEPALIVE_TCP => 5
  | .MESSAGE_KEEPALIVE_TCP_RES => 6
  | .MESSAGE_KEEPALIVE_UDP => 7
  | .MESSAGE_KEEPALIVE_UDP_RES => 8
  | .MESSAGE_CPE_CHANGE_NOTIFY => 18

/-! ## Mesh notify -/

/-- The entry of the configuration made of one entry of the message. -/
def nodeInfoOf (info : NetInfo) : NodeInfo :=
  { nodeID := info.nodeId
    virtualIP := info.virtualIp
    subNet := info.subnetIpStart
    netMask := info.netMask
    macAddr := info.macAddr }

/-- One turn of the loop over the message's entries. -/
def Server.copyNodeInfo (s : Server) (info : NetInfo) : Server :=
  if info.subnetIpStart = str "0.0.0.0" then s
  else
    { s with config := { s.config with
        nodeInfoList := s.config.nodeInfoList ++ [nodeInfoOf info] } }

/-- The statement groups of `handle_mesh_notify` behind its parse. -/
inductive MeshStep
  | clearAndCopy
  | delRoutes
  | initCpes
  | addRoutes
deriving DecidableEq, Repr

def meshSteps : List MeshStep := [.clearAndCopy, .delRoutes, .initCpes, .addRoutes]

def Server.meshStep (pf : Platform) (list : NodeInfoList) (s : Server) : MeshStep → Server
  | .clearAndCopy =>
    list.cpeList.foldl Server.copyNodeInfo
      { s with ip2nodeidCache := Memo.empty, config := { s.config with nodeInfoList := [] } }
  | .delRoutes => s.delRouteForNodes
  | .initCpes => s.initMeshCpes pf
  | .addRoutes => s.addRouteForNodes

def Server.handleMeshNotify (pf : Platform) (s : Server) (cpesInfo : Bytes) : Server :=
  if cpesInfo.length = 0 then s
  else
    let (parsed, list) := pf.proto.nodeInfoList cpesInfo
    if !parsed then s else meshSteps.foldl (Server.meshStep pf list) s

/-! ## Online notify -/

/-- The node made of one online CPE. -/
def onlineNode (info : CustemorInfo) : CpeNode :=
  { nodeID := atoi info.cpeId
    nodeVirtualIP := htonl (inetAddr info.cpeIp)
    nodeSubnetIPLow := 0
    nodeSubnetIPHigh := 0
    nodeSubnet := []
    nodeMacAddr := [] }

/-- The result of the parse is not looked at. -/
def Server.handleOnlineCpesNotify (pf : Platform) (s : Server) (cpesInfo : Bytes) : Server :=
  let (_, edgeListMsg) := pf.proto.userListOnEdge cpesInfo
  edgeListMsg.edgeList.foldl (fun s edgeInfoMsg =>
    edgeInfoMsg.cpeList.foldl (fun s cpeInfo => s.pushCpe (onlineNode cpeInfo)) s) s.clearCpes

/-! ## Framing -/

def Server.handleSessionDataRecv (pf : Platform) (s : Server) (data : Ptr) (len : U16) : Server :=
  if len ≤ 4 then s
  else
    let packLen := data.load16 0
    let packUri := data.load16 2
    if len.toNat ≠ packLen.toNat + 4 then s
    else
      let buff := data.slice 4 (len.toNat - 4)
      if packUri = MESSAGETYPE.MESSAGE_CPE_CHANGE_NOTIFY.value then
        let (parsed, notify) := pf.proto.cpeNodeChangeNotify buff
        if !parsed then s else s.handleMeshNotify pf notify.data
      else if packUri = MESSAGETYPE.MESSAGE_KEEPALIVE_TCP_RES.value ∨
          packUri = MESSAGETYPE.MESSAGE_KEEPALIVE_UDP_RES.value then
        let (parsed, pong) := pf.proto.keepAliveRes buff
        if !parsed then s
        else if pong.metaInfo.length = 0 then s
        else s.handleOnlineCpesNotify pf pong.metaInfo
      else s

/-- `RecvSessionMsgCallback`: the `int` length is cut to 16 bits. -/
def Server.recvSessionMsgCallback (pf : Platform) (s : Server) (data : Ptr) (len : U32) : Server :=
  s.handleSessionDataRecv pf data (len.setWidth 16)

end Cpe.Main
