import Cpe.Pro.Messages

/-! # Writing the messages

The serializers of the generated code, in the fields `Messages` keeps. A field
with its default value is not written, an entry of a list always is. -/
namespace Cpe.Pro
open Cpe.Lib.ByteOrder Cpe.Lib.ProtoWire

def NetInfo.serialize (m : NetInfo) : Bytes :=
  writeInt32 1 m.nodeId ++ writeBytes 2 m.virtualIp ++ writeBytes 3 m.subnetIpStart ++
    writeInt32 4 m.netMask ++ writeBytes 5 m.macAddr ++ writeBytes 6 m.metaInfo

def NodeInfoList.serialize (m : NodeInfoList) : Bytes :=
  m.cpeList.flatMap fun info => writeLen 1 info.serialize

def CpeNodeChangeNotify.serialize (m : CpeNodeChangeNotify) : Bytes := writeBytes 2 m.data

def KeepAliveRes.serialize (m : KeepAliveRes) : Bytes := writeBytes 5 m.metaInfo

def CustemorInfo.serialize (m : CustemorInfo) : Bytes :=
  writeBytes 1 m.cpeId ++ writeBytes 2 m.cpeIp

def CustemorPEList.serialize (m : CustemorPEList) : Bytes :=
  m.cpeList.flatMap fun info => writeLen 5 info.serialize

def UserListOnEdge.serialize (m : UserListOnEdge) : Bytes :=
  m.edgeList.flatMap fun info => writeLen 1 info.serialize

/-! ## The parsers read what is written -/

theorem ofNat_signExtend (x : U32) : BitVec.ofNat 32 (x.signExtend 64).toNat = x := by
  rw [BitVec.ofNat_toNat]
  apply BitVec.eq_of_getLsbD_eq
  intro i hi
  rw [BitVec.getLsbD_setWidth, BitVec.getLsbD_signExtend]
  simp [hi, show i < 64 by omega]

theorem netInfo_parse (depth : Nat) {m : NetInfo} (hsize : m.serialize.length ≤ maxSize) :
    parseMessage depth NetInfo.onField {} m.serialize = (true, m) := by
  obtain ⟨nodeId, virtualIp, subnetIpStart, netMask, macAddr, metaInfo⟩ := m
  have hip := length_le_writeBytes 2 virtualIp
  have hsubnet := length_le_writeBytes 3 subnetIpStart
  have hmac := length_le_writeBytes 5 macAddr
  have hmeta := length_le_writeBytes 6 metaInfo
  simp only [NetInfo.serialize, List.length_append] at hsize
  simp only [NetInfo.serialize, List.append_assoc]
  have hNodeId : NetInfo.onField {} 1 (.varint (nodeId.signExtend 64).toNat) =
      (true, { nodeId }) := by
    rw [NetInfo.onField, ofNat_signExtend]
  have hVirtualIp : NetInfo.onField { nodeId } 2 (.len virtualIp) =
      (true, { nodeId, virtualIp }) := rfl
  have hSubnet : NetInfo.onField { nodeId, virtualIp } 3 (.len subnetIpStart) =
      (true, { nodeId, virtualIp, subnetIpStart }) := rfl
  have hNetMask : NetInfo.onField { nodeId, virtualIp, subnetIpStart } 4
      (.varint (netMask.signExtend 64).toNat) =
      (true, { nodeId, virtualIp, subnetIpStart, netMask }) := by
    rw [NetInfo.onField, ofNat_signExtend]
  have hMac : NetInfo.onField { nodeId, virtualIp, subnetIpStart, netMask } 5 (.len macAddr) =
      (true, { nodeId, virtualIp, subnetIpStart, netMask, macAddr }) := rfl
  have hMeta : NetInfo.onField { nodeId, virtualIp, subnetIpStart, netMask, macAddr } 6
      (.len metaInfo) =
      (true, { nodeId, virtualIp, subnetIpStart, netMask, macAddr, metaInfo }) := rfl
  rw [parseMessage_writeInt32 (by decide) hNodeId (fun h => by rw [h]),
    parseMessage_writeBytes (by decide) (by omega) hVirtualIp (fun h => by rw [h]),
    parseMessage_writeBytes (by decide) (by omega) hSubnet (fun h => by rw [h]),
    parseMessage_writeInt32 (by decide) hNetMask (fun h => by rw [h]),
    parseMessage_writeBytes (by decide) (by omega) hMac (fun h => by rw [h]),
    ← List.append_nil (writeBytes 6 metaInfo),
    parseMessage_writeBytes (by decide) (by omega) hMeta (fun h => by rw [h]),
    parseMessage_nil]

/-- **A mesh list reads back** as it was written. -/
theorem nodeInfoList_parse {m : NodeInfoList} (hsize : m.serialize.length ≤ maxSize) :
    wire.nodeInfoList m.serialize = (true, m) := by
  have hle : ∀ info ∈ m.cpeList, info.serialize.length ≤ maxSize := fun info hinfo =>
    (length_le_flatMap 1 NetInfo.serialize hinfo).trans hsize
  refine parseMessage_flatMap (by decide) NodeInfoList.mk hle ?_ []
  intro done info hinfo
  rw [NodeInfoList.onField, netInfo_parse _ (hle info hinfo)]

theorem cpeNodeChangeNotify_parse {m : CpeNodeChangeNotify} (hsize : m.data.length ≤ maxSize) :
    wire.cpeNodeChangeNotify m.serialize = (true, m) := by
  have hData : CpeNodeChangeNotify.onField {} 2 (.len m.data) = (true, m) := rfl
  have hempty : m.data = [] → m = {} := fun h => by rw [← h]
  rw [CpeNodeChangeNotify.serialize, ← List.append_nil (writeBytes 2 m.data)]
  exact parseMessage_writeBytes (by decide) hsize hData hempty []

end Cpe.Pro
