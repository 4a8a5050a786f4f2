import Cpe.Main.Runs

/-! # Publishing a mesh list

The orchestrator sends a mesh list in a `CpeNodeChangeNotify`. A list with an
entry replaces the configured list and the table, whatever they were. A list
without entries is written as nothing, and a notify with nothing in it is
ignored. -/
namespace Cpe.Proofs.Publish
open Cpe.Lib.ByteOrder Cpe.Lib.CString Cpe.Lib.Run Cpe.Lib.ProtoWire Cpe.Pro Cpe.Main

/-- The datagram of a list: length, type 18 and the notify around it. -/
def publication (list : NodeInfoList) : Bytes :=
  datagram .MESSAGE_CPE_CHANGE_NOTIFY
    { data := list.serialize : CpeNodeChangeNotify }.serialize

/-- The arrival of the datagram, at the start of a buffer. -/
def publish (undefinedShift : U32 → U32) (s : Server) (data : Ptr) (list : NodeInfoList) :
    Server :=
  s.recvSessionMsgCallback ⟨wire, undefinedShift⟩ data (BitVec.ofNat 32 (publication list).length)

/-- Configured list and table are the entries of the list in order, but for
those whose subnet is `0.0.0.0`. -/
def TakesEffect (undefinedShift : U32 → U32) (list : NodeInfoList) (s : Server) : Prop :=
  s.config.nodeInfoList = meshInfos list ∧ s.cpes = meshTable ⟨wire, undefinedShift⟩ list

section
variable {list : NodeInfoList}

/-- A list with an entry is not written as nothing. -/
theorem serialize_ne_nil (h : list.cpeList ≠ []) : list.serialize ≠ [] := by
  obtain ⟨info, infos, hlist⟩ := List.exists_cons_of_ne_nil h
  intro hnil
  rw [NodeInfoList.serialize, hlist, List.flatMap_cons] at hnil
  have hhead := (List.append_eq_nil_iff.mp hnil).1
  rw [writeLen, List.append_assoc] at hhead
  have htag := (List.append_eq_nil_iff.mp hhead).1
  rw [writeVarint] at htag
  cases htag

theorem publication_length (list : NodeInfoList) :
    list.serialize.length + 4 ≤ (publication list).length := by
  have hdata := length_le_writeBytes 2 list.serialize
  rw [publication, datagram_length, CpeNodeChangeNotify.serialize]
  exact Nat.add_le_add_right hdata 4

/-- The notify parses, and what is in it is the list. -/
theorem decodeMesh_publication (undefinedShift : U32 → U32) (hne : list.cpeList ≠ [])
    (hsize : list.serialize.length ≤ maxSize) :
    decodeMesh ⟨wire, undefinedShift⟩ { data := list.serialize : CpeNodeChangeNotify }.serialize =
      .mesh true list := by
  have houter :
      wire.cpeNodeChangeNotify { data := list.serialize : CpeNodeChangeNotify }.serialize =
        (true, ⟨list.serialize⟩) := cpeNodeChangeNotify_parse hsize
  have hinner := nodeInfoList_parse hsize
  have hlen : list.serialize.length ≠ 0 := by
    intro h
    exact serialize_ne_nil hne (List.length_eq_zero_iff.mp h)
  unfold decodeMesh
  simp only [houter, hinner, hlen, Bool.not_true, Bool.false_eq_true, if_false]

theorem decodeSession_publication (undefinedShift : U32 → U32) {data : Ptr}
    (hmem : data.StartsWith (publication list)) (hne : list.cpeList ≠ [])
    (hfits : (publication list).length ≤ 65535) :
    decodeSession ⟨wire, undefinedShift⟩ data (BitVec.ofNat 16 (publication list).length) =
      .mesh true list := by
  have hsize : list.serialize.length ≤ maxSize := by
    have hlen := publication_length list
    unfold maxSize
    omega
  have hbody : { data := list.serialize : CpeNodeChangeNotify }.serialize ≠ [] := by
    intro hnil
    have hlen := length_le_writeBytes 2 list.serialize
    rw [CpeNodeChangeNotify.serialize] at hnil
    rw [hnil] at hlen
    exact serialize_ne_nil hne (List.length_eq_zero_iff.mp (Nat.le_zero.mp hlen))
  have hframe := sessionFrame_datagram hmem hbody hfits
  rw [decodeSession, publication, hframe]
  simp only [if_true]
  exact decodeMesh_publication undefinedShift hne hsize

end

/-- **Publishing a list with an entry takes effect**, in every state. -/
theorem publish_takes_effect (undefinedShift : U32 → U32) (s : Server) (list : NodeInfoList)
    (data : Ptr) (hmem : data.StartsWith (publication list)) (hne : list.cpeList ≠ [])
    (hfits : (publication list).length ≤ 65535) :
    TakesEffect undefinedShift list (publish undefinedShift s data list) := by
  have hcut : (BitVec.ofNat 32 (publication list).length).setWidth 16 =
      BitVec.ofNat 16 (publication list).length := by
    apply BitVec.eq_of_toNat_eq
    simp only [BitVec.toNat_setWidth, BitVec.toNat_ofNat]
    omega
  rw [publish, Server.recvSessionMsgCallback, hcut, handleSessionDataRecv_eq,
    decodeSession_publication undefinedShift hmem hne hfits]
  exact ⟨rfl, rfl⟩

/-! ## The empty list -/

def peerList : NodeInfoList := ⟨[{ nodeId := 2, virtualIp := str "10.0.0.2", netMask := 32 }]⟩

/-- A server that knows one peer. -/
def peered : Server :=
  run (Server.step ⟨wire, id⟩) (started ⟨wire, id⟩ 3 1 {} 9) [.meshNotify peerList]

/-- A list without entries leaves the peer in the table. -/
theorem empty_publication_ignored :
    ¬ TakesEffect id ⟨[]⟩ (publish id peered (Ptr.ofBytes (publication ⟨[]⟩)) ⟨[]⟩) := by
  intro h
  have hempty : (publish id peered (Ptr.ofBytes (publication ⟨[]⟩)) ⟨[]⟩).cpes = [] := h.2
  exact absurd hempty (by decide +kernel)

/-- Two peers, one of them without a subnet of its own. -/
def branchList : NodeInfoList :=
  ⟨[{ nodeId := 4, virtualIp := str "10.0.0.4", subnetIpStart := str "10.4.0.0/16", netMask := 16 },
    { nodeId := 5, virtualIp := str "10.0.0.5", subnetIpStart := str "0.0.0.0", netMask := 32 }]⟩

/-- A list of two entries replaces the peer by the one that is kept. -/
theorem branch_publication_replaces :
    TakesEffect id branchList
      (publish id peered (Ptr.ofBytes (publication branchList)) branchList) :=
  publish_takes_effect id peered branchList (Ptr.ofBytes (publication branchList))
    (ofBytes_startsWith _) (by decide) (by decide +kernel)

end Cpe.Proofs.Publish
