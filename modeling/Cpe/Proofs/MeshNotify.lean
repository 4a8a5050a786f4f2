import Cpe.Main.Runs

/-! # Dispatch after a mesh notify

A mesh notify empties the cache and takes the table from its own list only.
From then on the cache is filled from that table, so every later packet goes
where the list says, whatever the state was before. -/
namespace Cpe.Proofs.MeshNotify
open Cpe.Lib.ByteOrder Cpe.Lib.CString Cpe.Lib.MemoTable Cpe.Lib.Run Cpe.Pro Cpe.Main

/-- Where a mesh list sends an address: to the first kept entry that covers it,
else to the gateway, or nowhere on a gateway. -/
def listDest (list : NodeInfoList) (gateWay gatewayId ip : U32) : U32 :=
  ((firstEntry list ip).map NetInfo.nodeId).getD (if gateWay = 0 then gatewayId else 0)

/-- The server answers from a list: mode, gateway and table are as the list
wants them, and the cache is right. -/
structure Follows (pf : Platform) (list : NodeInfoList) (gateWay gatewayId : U32) (s : Server) :
    Prop where
  mode : s.TunMode
  role : s.config.gateWay = gateWay
  gateway : s.gatewayId = gatewayId
  table : s.cpes = meshTable pf list
  cache : Coherent s.tunLookup s.ip2nodeidCache

variable {pf : Platform} {list : NodeInfoList} {gateWay gatewayId : U32} {s : Server}

theorem Follows.tunLookup (h : Follows pf list gateWay gatewayId s) (ip : U32) :
    s.tunLookup ip = listDest list gateWay gatewayId ip := by
  rw [tunLookup_eq h.mode, h.table, owner_meshTable, Option.map_map, Server.fallback, h.role,
    h.gateway]
  rfl

/-- A dispatch follows the list, -/
theorem Follows.dest (h : Follows pf list gateWay gatewayId s) (packet : Ptr) :
    (s.getDestIDFromTunPacket packet).1 = listDest list gateWay gatewayId (tunDestIP packet) := by
  rw [getDestIDFromTunPacket_eq h.mode, ← h.tunLookup]
  exact h.cache.answer (tunDestIP packet)

/-- and the state it leaves still does. -/
theorem Follows.tunStep (h : Follows pf list gateWay gatewayId s) (packet : Ptr) :
    Follows pf list gateWay gatewayId (s.tunStep packet) := by
  rw [tunStep_eq h.mode]
  exact ⟨h.mode, h.role, h.gateway, h.table, h.cache.learn (tunDestIP packet)⟩

/-- A mesh notify makes any state follow its list. -/
theorem follows_applyMesh (pf : Platform) (hmode : s.TunMode) (list : NodeInfoList) :
    Follows pf list s.config.gateWay s.gatewayId (s.applyMesh pf list) :=
  ⟨hmode, rfl, rfl, rfl, coherent_empty _⟩

/-- **Self-stabilisation.** After an accepted mesh notify, in any state in TUN
mode, every packet of every sequence goes where the list of the notify says. -/
theorem mesh_notify_stabilises (pf : Platform) (s : Server) (htap : s.config.tapMode = 0)
    (hacc : s.config.onlyAcc = 0) (data : Ptr) (len : U16) (list : NodeInfoList)
    (haccepted : decodeSession pf data len = .mesh true list) (packets : List Ptr)
    (packet : Ptr) :
    ((run Server.tunStep (s.handleSessionDataRecv pf data len) packets).getDestIDFromTunPacket packet).1 =
      listDest list s.config.gateWay s.gatewayId (tunDestIP packet) := by
  have hmode : s.TunMode := ⟨htap, hacc⟩
  have hstart : Follows pf list s.config.gateWay s.gatewayId
      (s.handleSessionDataRecv pf data len) := by
    rw [handleSessionDataRecv_eq, haccepted]
    exact follows_applyMesh pf hmode list
  have hrun : Follows pf list s.config.gateWay s.gatewayId
      (run Server.tunStep (s.handleSessionDataRecv pf data len) packets) :=
    run_of_step hstart fun _ packet h => h.tunStep packet
  exact hrun.dest packet

/-- A state with a wrong cache entry and a table of its own. -/
def disturbed : Server :=
  { started ⟨wire, id⟩ 3 1 {} 9 with
    ip2nodeidCache := Function.update Memo.empty 0x0a000002 (some 7)
    cpes := [onlineNode ⟨str "8", str "10.0.0.2"⟩] }

/-- The list of a mesh notify for one node, and its datagram. -/
def oneNodeList : NodeInfoList :=
  ⟨[{ nodeId := 2, virtualIp := str "10.0.0.2", netMask := 32 }]⟩

def oneNodeNotify : Bytes :=
  datagram .MESSAGE_CPE_CHANGE_NOTIFY
    { data := oneNodeList.serialize : CpeNodeChangeNotify }.serialize

/-- The notify makes the entry right. -/
theorem mesh_notify_repairs :
    ((run Server.tunStep
      (disturbed.handleSessionDataRecv ⟨wire, id⟩ (Ptr.ofBytes oneNodeNotify) 22)
      [packetTo 0x0a000002, packetTo 0x0a000003]).getDestIDFromTunPacket
        (packetTo 0x0a000002)).1 = 2 := by
  have haccepted : decodeSession ⟨wire, id⟩ (Ptr.ofBytes oneNodeNotify) 22 =
      .mesh true oneNodeList := rfl
  have hdest := mesh_notify_stabilises ⟨wire, id⟩ disturbed rfl rfl (Ptr.ofBytes oneNodeNotify) 22
    oneNodeList haccepted [packetTo 0x0a000002, packetTo 0x0a000003] (packetTo 0x0a000002)
  have hlist : listDest oneNodeList 0 9 (tunDestIP (packetTo 0x0a000002)) = 2 := by
    decide +kernel
  exact hdest.trans hlist

end Cpe.Proofs.MeshNotify
