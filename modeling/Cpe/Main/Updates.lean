import Cpe.Lib.Run
import Cpe.Main.Lookup
import Cpe.Main.Session

/-! # What a session datagram does

A datagram is decoded through its layers to a `SessionMsg`, which names the
layer that turns it down or carries the list of its payload. The handlers are
then two updates: a mesh notify replaces list, table and routes and empties
the cache, an online notify replaces the table only. -/
namespace Cpe.Main
open Cpe.Lib.ByteOrder Cpe.Lib.CString Cpe.Lib.InetAddr Cpe.Lib.MemoTable Cpe.Lib.BitPrefix
open Cpe.Lib.Number Cpe.Lib.Run Cpe.Pro

/-! ## Decoding -/

/-- The layers of a datagram. An inner list comes with the result of its
parse. -/
inductive SessionMsg
  | badFraming
  | unknownType
  | badOuter
  | noPayload
  | mesh (parsed : Bool) (list : NodeInfoList)
  | online (parsed : Bool) (list : UserListOnEdge)

/-- The type and the body of a datagram whose length fits its header. -/
def sessionFrame (data : Ptr) (len : U16) : Option (U16 × Bytes) :=
  if 4 < len ∧ len.toNat = (data.load16 0).toNat + 4 then
    some (data.load16 2, data.slice 4 (len.toNat - 4))
  else none

def decodeMesh (pf : Platform) (buff : Bytes) : SessionMsg :=
  let notify := pf.proto.cpeNodeChangeNotify buff
  if !notify.1 then .badOuter
  else if notify.2.data.length = 0 then .noPayload
  else .mesh (pf.proto.nodeInfoList notify.2.data).1 (pf.proto.nodeInfoList notify.2.data).2

def decodeOnline (pf : Platform) (buff : Bytes) : SessionMsg :=
  let pong := pf.proto.keepAliveRes buff
  if !pong.1 then .badOuter
  else if pong.2.metaInfo.length = 0 then .noPayload
  else .online (pf.proto.userListOnEdge pong.2.metaInfo).1
    (pf.proto.userListOnEdge pong.2.metaInfo).2

def decodeSession (pf : Platform) (data : Ptr) (len : U16) : SessionMsg :=
  match sessionFrame data len with
  | none => .badFraming
  | some (uri, buff) =>
    if uri = MESSAGETYPE.MESSAGE_CPE_CHANGE_NOTIFY.value then decodeMesh pf buff
    else if uri = MESSAGETYPE.MESSAGE_KEEPALIVE_TCP_RES.value ∨
        uri = MESSAGETYPE.MESSAGE_KEEPALIVE_UDP_RES.value then decodeOnline pf buff
    else .unknownType

/-- A datagram that some layer turns down or cannot parse. -/
def SessionMsg.Malformed : SessionMsg → Prop
  | .mesh parsed _ => parsed = false
  | .online parsed _ => parsed = false
  | _ => True

instance (msg : SessionMsg) : Decidable msg.Malformed :=
  match msg with
  | .mesh parsed _ | .online parsed _ => inferInstanceAs (Decidable (parsed = false))
  | .badFraming | .unknownType | .badOuter | .noPayload => isTrue trivial

/-! ## The two updates -/

/-- The entries of a mesh list that are kept. -/
def keptInfos (list : NodeInfoList) : List NetInfo :=
  list.cpeList.filter fun info => info.subnetIpStart ≠ str "0.0.0.0"

def meshInfos (list : NodeInfoList) : List NodeInfo := (keptInfos list).map nodeInfoOf

/-- The table of a mesh list. -/
def meshTable (pf : Platform) (list : NodeInfoList) : List CpeNode :=
  (meshInfos list).map (meshNode pf)

/-- The table of a list of online CPEs. -/
def onlineTable (list : UserListOnEdge) : List CpeNode :=
  (list.edgeList.flatMap (·.cpeList)).map onlineNode

def Server.applyMesh (pf : Platform) (s : Server) (list : NodeInfoList) : Server :=
  { s with
    ip2nodeidCache := Memo.empty
    config := { s.config with nodeInfoList := meshInfos list }
    cpes := meshTable pf list
    routes := s.routes \ routesOf s.localId s.cpes ∪ routesOf s.localId (meshTable pf list) }

def Server.applyOnline (s : Server) (list : UserListOnEdge) : Server :=
  { s with cpes := onlineTable list }

def Server.receive (pf : Platform) (s : Server) : SessionMsg → Server
  | .mesh true list => s.applyMesh pf list
  | .online _ list => s.applyOnline list
  | _ => s

/-- A loop that pushes one node for each entry. -/
theorem foldl_pushCpe {α : Type} (f : α → CpeNode) (s : Server) (xs : List α) :
    xs.foldl (fun s x => s.pushCpe (f x)) s = { s with cpes := s.cpes ++ xs.map f } := by
  induction xs generalizing s with
  | nil => simp
  | cons x xs ih =>
    rw [List.foldl_cons, ih]
    simp [Server.pushCpe]

theorem initMeshCpes_eq (pf : Platform) (s : Server) :
    s.initMeshCpes pf = { s with cpes := s.config.nodeInfoList.map (meshNode pf) } := by
  rw [Server.initMeshCpes, foldl_pushCpe]
  rfl

theorem handleOnlineCpesNotify_eq (pf : Platform) (s : Server) (cpesInfo : Bytes) :
    s.handleOnlineCpesNotify pf cpesInfo =
      s.applyOnline (pf.proto.userListOnEdge cpesInfo).2 := by
  unfold Server.handleOnlineCpesNotify
  simp only
  rw [← List.foldl_flatMap, foldl_pushCpe]
  rfl

theorem foldl_copyNodeInfo (s : Server) (infos : List NetInfo) :
    infos.foldl Server.copyNodeInfo s =
      { s with config := { s.config with
          nodeInfoList := s.config.nodeInfoList ++ meshInfos ⟨infos⟩ } } := by
  induction infos generalizing s with
  | nil => simp [meshInfos, keptInfos]
  | cons info infos ih =>
    rw [List.foldl_cons, ih]
    by_cases h : info.subnetIpStart = str "0.0.0.0"
    · simp [Server.copyNodeInfo, meshInfos, keptInfos, h]
    · simp [Server.copyNodeInfo, meshInfos, keptInfos, h]

/-- The four statement groups of `handle_mesh_notify`, one after the other. -/
theorem foldl_meshSteps (pf : Platform) (s : Server) (list : NodeInfoList) :
    meshSteps.foldl (Server.meshStep pf list) s = s.applyMesh pf list := by
  simp only [meshSteps, List.foldl_cons, List.foldl_nil, Server.meshStep, foldl_copyNodeInfo,
    delRouteForNodes_eq, initMeshCpes_eq, addRouteForNodes_eq]
  rfl

/-- `handle_mesh_notify` parses the bytes as a list and goes on. -/
def Accepts (pf : Platform) (cpesInfo : Bytes) (list : NodeInfoList) : Prop :=
  cpesInfo ≠ [] ∧ pf.proto.nodeInfoList cpesInfo = (true, list)

theorem handleMeshNotify_accepted {pf : Platform} {cpesInfo : Bytes} {list : NodeInfoList}
    (h : Accepts pf cpesInfo list) (s : Server) :
    s.handleMeshNotify pf cpesInfo = s.applyMesh pf list := by
  obtain ⟨hne, hparse⟩ := h
  unfold Server.handleMeshNotify
  rw [if_neg (fun he => hne (List.length_eq_zero_iff.mp he)), hparse]
  exact foldl_meshSteps pf s list

theorem handleMeshNotify_eq (pf : Platform) (s : Server) (buff : Bytes) :
    (if !(pf.proto.cpeNodeChangeNotify buff).1 then s
      else s.handleMeshNotify pf (pf.proto.cpeNodeChangeNotify buff).2.data) =
    s.receive pf (decodeMesh pf buff) := by
  unfold decodeMesh Server.handleMeshNotify
  simp only [foldl_meshSteps]
  split
  · rfl
  · split
    · rfl
    · cases (pf.proto.nodeInfoList (pf.proto.cpeNodeChangeNotify buff).2.data).1 <;> rfl

theorem handleKeepAlive_eq (pf : Platform) (s : Server) (buff : Bytes) :
    (if !(pf.proto.keepAliveRes buff).1 then s
      else if (pf.proto.keepAliveRes buff).2.metaInfo.length = 0 then s
      else s.handleOnlineCpesNotify pf (pf.proto.keepAliveRes buff).2.metaInfo) =
    s.receive pf (decodeOnline pf buff) := by
  unfold decodeOnline
  simp only [handleOnlineCpesNotify_eq]
  split
  · rfl
  · split
    · rfl
    · rfl

/-- **A datagram does what its decoded message says.** -/
theorem handleSessionDataRecv_eq (pf : Platform) (s : Server) (data : Ptr) (len : U16) :
    s.handleSessionDataRecv pf data len = s.receive pf (decodeSession pf data len) := by
  unfold Server.handleSessionDataRecv decodeSession sessionFrame
  by_cases hshort : len ≤ 4
  · have hlen : ¬ 4 < len := BitVec.not_lt.mpr hshort
    rw [if_pos hshort, if_neg (fun h => hlen h.1)]
    rfl
  · have hlen : 4 < len := BitVec.not_le.mp hshort
    simp only [hshort, if_false, hlen, true_and]
    by_cases hpack : len.toNat = (data.load16 0).toNat + 4
    · simp only [hpack, ne_eq, not_true_eq_false, if_false, if_true]
      split
      · exact handleMeshNotify_eq pf s _
      · split
        · exact handleKeepAlive_eq pf s _
        · rfl
    · simp only [hpack, ne_eq, not_false_eq_true, if_true, if_false]
      rfl

/-! ## The new tables, in the words of the messages -/

/-- An entry covers its virtual address and the addresses of its prefixes. -/
def EntryCovers (info : NetInfo) (ip : U32) : Prop :=
  ip = htonl (inetAddr info.virtualIp) ∨ ∃ p ∈ prefixesOf info.subnetIpStart, p.Contains ip

instance (info : NetInfo) (ip : U32) : Decidable (EntryCovers info ip) :=
  inferInstanceAs (Decidable (_ ∨ _))

/-- The first kept entry of a mesh list that covers an address. -/
def firstEntry (list : NodeInfoList) (ip : U32) : Option NetInfo :=
  (keptInfos list).find? fun info => EntryCovers info ip

/-- The first listed CPE with an address. -/
def firstOnline (list : UserListOnEdge) (ip : U32) : Option CustemorInfo :=
  (list.edgeList.flatMap (·.cpeList)).find? fun info => ip = htonl (inetAddr info.cpeIp)

/-- The node a mesh entry becomes. -/
def entryNode (pf : Platform) (info : NetInfo) : CpeNode := meshNode pf (nodeInfoOf info)

theorem meshTable_eq (pf : Platform) (list : NodeInfoList) :
    meshTable pf list = (keptInfos list).map (entryNode pf) := List.map_map

theorem owner_meshTable (pf : Platform) (list : NodeInfoList) (ip : U32) :
    owner (meshTable pf list) ip = (firstEntry list ip).map (entryNode pf) := by
  rw [owner, meshTable_eq, List.find?_map]
  rfl

theorem prefixesOf_nil : prefixesOf [] = [] := rfl

theorem onlineNode_covers (info : CustemorInfo) (ip : U32) :
    (onlineNode info).Covers ip ↔ ip = htonl (inetAddr info.cpeIp) := by
  unfold CpeNode.Covers onlineNode
  simp [prefixesOf_nil]

theorem owner_onlineTable (list : UserListOnEdge) (ip : U32) :
    owner (onlineTable list) ip = (firstOnline list ip).map onlineNode := by
  unfold owner onlineTable firstOnline
  rw [List.find?_map]
  simp only [Function.comp_def, onlineNode_covers]

/-- The routes of the entries of the nodes other than `localId`. -/
def listedRoutes (localId : U32) (list : NodeInfoList) : Finset Route :=
  ((list.cpeList.filter (localId ≠ ·.nodeId)).flatMap fun info =>
    (prefixesOf info.subnetIpStart).map toRoute).toFinset

theorem prefixesOf_default : prefixesOf (str "0.0.0.0") = [] := by decide

theorem mem_routeList {localId : U32} {cpes : List CpeNode} {r : Route} :
    r ∈ routeList localId cpes ↔
      ∃ node ∈ cpes, localId ≠ node.nodeID ∧ ∃ p ∈ prefixesOf node.nodeSubnet, toRoute p = r := by
  simp [routeList, and_assoc]

theorem mem_routesOf {localId : U32} {cpes : List CpeNode} {r : Route} :
    r ∈ routesOf localId cpes ↔
      ∃ node ∈ cpes, localId ≠ node.nodeID ∧ ∃ p ∈ prefixesOf node.nodeSubnet, toRoute p = r := by
  rw [routesOf, List.mem_toFinset, mem_routeList]

theorem mem_listedRoutes {localId : U32} {list : NodeInfoList} {r : Route} :
    r ∈ listedRoutes localId list ↔
      ∃ info ∈ list.cpeList, localId ≠ info.nodeId ∧
        ∃ p ∈ prefixesOf info.subnetIpStart, toRoute p = r := by
  simp [listedRoutes, and_assoc]

/-- The entries that are left out have no prefix. -/
theorem mem_keptInfos_of_prefix {list : NodeInfoList} {info : NetInfo} {p : Prefix 32}
    (h : info ∈ list.cpeList) (hp : p ∈ prefixesOf info.subnetIpStart) :
    info ∈ keptInfos list := by
  have hkept : info.subnetIpStart ≠ str "0.0.0.0" := by
    intro he
    rw [he, prefixesOf_default] at hp
    cases hp
  exact List.mem_filter.mpr ⟨h, decide_eq_true hkept⟩

theorem routesOf_meshTable (pf : Platform) (localId : U32) (list : NodeInfoList) :
    routesOf localId (meshTable pf list) = listedRoutes localId list := by
  ext r
  rw [mem_routesOf, mem_listedRoutes, meshTable_eq]
  constructor
  · rintro ⟨node, hnode, hid, p, hp, rfl⟩
    obtain ⟨info, hinfo, rfl⟩ := List.mem_map.mp hnode
    exact ⟨info, (List.mem_filter.mp hinfo).1, hid, p, hp, rfl⟩
  · rintro ⟨info, hinfo, hid, p, hp, rfl⟩
    have hmem := mem_keptInfos_of_prefix hinfo hp
    exact ⟨entryNode pf info, List.mem_map_of_mem hmem, hid, p, hp, rfl⟩

/-- A table of online CPEs has no routes. -/
theorem routesOf_onlineTable (localId : U32) (list : UserListOnEdge) :
    routesOf localId (onlineTable list) = ∅ := by
  ext r
  rw [mem_routesOf]
  constructor
  · rintro ⟨node, hnode, _, p, hp, _⟩
    obtain ⟨info, _, rfl⟩ := List.mem_map.mp hnode
    rw [onlineNode, prefixesOf_nil] at hp
    cases hp
  · intro h
    cases h

end Cpe.Main
