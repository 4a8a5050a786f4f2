import Cpe.Lib.ProtoCodec
import Cpe.Pro.Encode

/-! # The message classes

All messages of `packet/*.proto` with all their fields and the fields of other
numbers, which the classes keep as bytes. Each class is the list of its slots,
in the order in which they are written. -/
namespace Cpe.Pro.Packet
open Cpe.Lib.ByteOrder Cpe.Lib.ProtoWire Cpe.Lib.ProtoCodec

/-! ## Field types -/

def int32 : Nat → Slot U32 :=
  Slot.scalar (BitVec.signExtend 64) ofNat_signExtend

def uint32 : Nat → Slot U32 :=
  Slot.scalar (BitVec.setWidth 64) fun x => by
    rw [BitVec.ofNat_toNat, BitVec.setWidth_setWidth_of_le x (by decide), BitVec.setWidth_eq]

/-- `int64` and `uint64`. -/
def int64 : Nat → Slot (BitVec 64) :=
  Slot.scalar id fun x => by rw [id, BitVec.ofNat_toNat, BitVec.setWidth_eq]

/-! ## `login.proto` -/

structure NetInfo where
  nodeId : U32 := 0
  virtualIp : Bytes := []
  subnetIpStart : Bytes := []
  netMask : U32 := 0
  macAddr : Bytes := []
  metaInfo : Bytes := []
  unknownFields : Bytes := []
deriving DecidableEq, Repr

def NetInfo.layout : NetInfo ≃ (U32 × Bytes × Bytes × U32 × Bytes × Bytes × Unit) × Bytes where
  toFun m := ((m.nodeId, m.virtualIp, m.subnetIpStart, m.netMask, m.macAddr, m.metaInfo, ()),
    m.unknownFields)
  invFun := fun ((nodeId, virtualIp, subnetIpStart, netMask, macAddr, metaInfo, ()),
      unknownFields) =>
    { nodeId, virtualIp, subnetIpStart, netMask, macAddr, metaInfo, unknownFields }
  left_inv _ := rfl
  right_inv _ := rfl

def NetInfo.codec : Codec NetInfo :=
  .ofFields layout (.cons (int32 1) <| .cons (.bytes 2) <| .cons (.bytes 3) <| .cons (int32 4) <|
    .cons (.bytes 5) <| .cons (.bytes 6) .nil) (by decide)

structure NodeInfoList where
  cpeList : List NetInfo := []
  unknownFields : Bytes := []
deriving DecidableEq, Repr

def NodeInfoList.layout : NodeInfoList ≃ (List NetInfo × Unit) × Bytes where
  toFun m := ((m.cpeList, ()), m.unknownFields)
  invFun := fun ((cpeList, ()), unknownFields) => { cpeList, unknownFields }
  left_inv _ := rfl
  right_inv _ := rfl

def NodeInfoList.codec : Codec NodeInfoList :=
  .ofFields layout (.cons (.repeated NetInfo.codec 1) .nil) (by decide)

structure Login where
  uid : Bytes := []
  token : Bytes := []
  netinfo : Option NetInfo := none
  vender : Bytes := []
  metaInfo : Bytes := []
  unknownFields : Bytes := []
deriving DecidableEq, Repr

def Login.layout : Login ≃ (Bytes × Bytes × Option NetInfo × Bytes × Bytes × Unit) × Bytes where
  toFun m := ((m.uid, m.token, m.netinfo, m.vender, m.metaInfo, ()), m.unknownFields)
  invFun := fun ((uid, token, netinfo, vender, metaInfo, ()), unknownFields) =>
    { uid, token, netinfo, vender, metaInfo, unknownFields }
  left_inv _ := rfl
  right_inv _ := rfl

def Login.codec : Codec Login :=
  .ofFields layout (.cons (.bytes 1) <| .cons (.bytes 2) <| .cons (.message NetInfo.codec 3) <|
    .cons (.bytes 4) <| .cons (.bytes 5) .nil) (by decide)

structure LoginRes where
  uid : Bytes := []
  resCode : U32 := 0
  gatewayId : U32 := 0
  publicIp : Bytes := []
  metaInfo : Bytes := []
  unknownFields : Bytes := []
deriving DecidableEq, Repr

def LoginRes.layout : LoginRes ≃ (Bytes × U32 × U32 × Bytes × Bytes × Unit) × Bytes where
  toFun m := ((m.uid, m.resCode, m.gatewayId, m.publicIp, m.metaInfo, ()), m.unknownFields)
  invFun := fun ((uid, resCode, gatewayId, publicIp, metaInfo, ()), unknownFields) =>
    { uid, resCode, gatewayId, publicIp, metaInfo, unknownFields }
  left_inv _ := rfl
  right_inv _ := rfl

def LoginRes.codec : Codec LoginRes :=
  .ofFields layout (.cons (.bytes 1) <| .cons (int32 2) <| .cons (int32 3) <| .cons (.bytes 4) <|
    .cons (.bytes 5) .nil) (by decide)

structure CpeNodeChangeNotify where
  uid : Bytes := []
  data : Bytes := []
  unknownFields : Bytes := []
deriving DecidableEq, Repr

def CpeNodeChangeNotify.layout : CpeNodeChangeNotify ≃ (Bytes × Bytes × Unit) × Bytes where
  toFun m := ((m.uid, m.data, ()), m.unknownFields)
  invFun := fun ((uid, data, ()), unknownFields) => { uid, data, unknownFields }
  left_inv _ := rfl
  right_inv _ := rfl

def CpeNodeChangeNotify.codec : Codec CpeNodeChangeNotify :=
  .ofFields layout (.cons (.bytes 1) <| .cons (.bytes 2) .nil) (by decide)

/-! ## `keepalive.proto` -/

structure KeepAlive where
  uid : Bytes := []
  seq : BitVec 64 := 0
  tick : BitVec 64 := 0
  metaInfo : Bytes := []
  unknownFields : Bytes := []
deriving DecidableEq, Repr

def KeepAlive.layout : KeepAlive ≃ (Bytes × BitVec 64 × BitVec 64 × Bytes × Unit) × Bytes where
  toFun m := ((m.uid, m.seq, m.tick, m.metaInfo, ()), m.unknownFields)
  invFun := fun ((uid, seq, tick, metaInfo, ()), unknownFields) =>
    { uid, seq, tick, metaInfo, unknownFields }
  left_inv _ := rfl
  right_inv _ := rfl

def KeepAlive.codec : Codec KeepAlive :=
  .ofFields layout (.cons (.bytes 1) <| .cons (int64 2) <| .cons (int64 3) <|
    .cons (.bytes 4) .nil) (by decide)

structure KeepAliveRes where
  uid : Bytes := []
  resCode : U32 := 0
  seq : BitVec 64 := 0
  tick : BitVec 64 := 0
  metaInfo : Bytes := []
  unknownFields : Bytes := []
deriving DecidableEq, Repr

def KeepAliveRes.layout :
    KeepAliveRes ≃ (Bytes × U32 × BitVec 64 × BitVec 64 × Bytes × Unit) × Bytes where
  toFun m := ((m.uid, m.resCode, m.seq, m.tick, m.metaInfo, ()), m.unknownFields)
  invFun := fun ((uid, resCode, seq, tick, metaInfo, ()), unknownFields) =>
    { uid, resCode, seq, tick, metaInfo, unknownFields }
  left_inv _ := rfl
  right_inv _ := rfl

def KeepAliveRes.codec : Codec KeepAliveRes :=
  .ofFields layout (.cons (.bytes 1) <| .cons (uint32 2) <| .cons (int64 3) <| .cons (int64 4) <|
    .cons (.bytes 5) .nil) (by decide)

/-! ## `raw.proto` -/

structure Data where
  uid : Bytes := []
  dest : Bytes := []
  seq : BitVec 64 := 0
  crc : U32 := 0
  rawData : Bytes := []
  unknownFields : Bytes := []
deriving DecidableEq, Repr

def Data.layout : Data ≃ (Bytes × Bytes × BitVec 64 × U32 × Bytes × Unit) × Bytes where
  toFun m := ((m.uid, m.dest, m.seq, m.crc, m.rawData, ()), m.unknownFields)
  invFun := fun ((uid, dest, seq, crc, rawData, ()), unknownFields) =>
    { uid, dest, seq, crc, rawData, unknownFields }
  left_inv _ := rfl
  right_inv _ := rfl

def Data.codec : Codec Data :=
  .ofFields layout (.cons (.bytes 1) <| .cons (.bytes 2) <| .cons (int64 3) <| .cons (int32 4) <|
    .cons (.bytes 5) .nil) (by decide)

/-! ## `user_info.proto` -/

structure CustemorInfo where
  cpeId : Bytes := []
  cpeIp : Bytes := []
  cpeVender : Bytes := []
  unknownFields : Bytes := []
deriving DecidableEq, Repr

def CustemorInfo.layout : CustemorInfo ≃ (Bytes × Bytes × Bytes × Unit) × Bytes where
  toFun m := ((m.cpeId, m.cpeIp, m.cpeVender, ()), m.unknownFields)
  invFun := fun ((cpeId, cpeIp, cpeVender, ()), unknownFields) =>
    { cpeId, cpeIp, cpeVender, unknownFields }
  left_inv _ := rfl
  right_inv _ := rfl

def CustemorInfo.codec : Codec CustemorInfo :=
  .ofFields layout (.cons (.bytes 1) <| .cons (.bytes 2) <| .cons (.bytes 3) .nil) (by decide)

structure CustemorPEList where
  edgeId : Bytes := []
  edgeIp : Bytes := []
  edgePort : U32 := 0
  edgeGroup : U32 := 0
  cpeList : List CustemorInfo := []
  unknownFields : Bytes := []
deriving DecidableEq, Repr

def CustemorPEList.layout :
    CustemorPEList ≃ (Bytes × Bytes × U32 × U32 × List CustemorInfo × Unit) × Bytes where
  toFun m := ((m.edgeId, m.edgeIp, m.edgePort, m.edgeGroup, m.cpeList, ()), m.unknownFields)
  invFun := fun ((edgeId, edgeIp, edgePort, edgeGroup, cpeList, ()), unknownFields) =>
    { edgeId, edgeIp, edgePort, edgeGroup, cpeList, unknownFields }
  left_inv _ := rfl
  right_inv _ := rfl

def CustemorPEList.codec : Codec CustemorPEList :=
  .ofFields layout (.cons (.bytes 1) <| .cons (.bytes 2) <| .cons (int32 3) <| .cons (int32 4) <|
    .cons (.repeated CustemorInfo.codec 5) .nil) (by decide)

structure UserListOnEdge where
  edgeList : List CustemorPEList := []
  unknownFields : Bytes := []
deriving DecidableEq, Repr

def UserListOnEdge.layout : UserListOnEdge ≃ (List CustemorPEList × Unit) × Bytes where
  toFun m := ((m.edgeList, ()), m.unknownFields)
  invFun := fun ((edgeList, ()), unknownFields) => { edgeList, unknownFields }
  left_inv _ := rfl
  right_inv _ := rfl

def UserListOnEdge.codec : Codec UserListOnEdge :=
  .ofFields layout (.cons (.repeated CustemorPEList.codec 1) .nil) (by decide)

/-! ## All messages -/

inductive MessageType
  | netInfo | nodeInfoList | login | loginRes | cpeNodeChangeNotify | keepAlive | keepAliveRes
  | data
  | custemorInfo | custemorPEList | userListOnEdge
deriving DecidableEq, Repr

def MessageType.Message : MessageType → Type
  | netInfo => NetInfo
  | nodeInfoList => NodeInfoList
  | login => Login
  | loginRes => LoginRes
  | cpeNodeChangeNotify => CpeNodeChangeNotify
  | keepAlive => KeepAlive
  | keepAliveRes => KeepAliveRes
  | data => Data
  | custemorInfo => CustemorInfo
  | custemorPEList => CustemorPEList
  | userListOnEdge => UserListOnEdge

def MessageType.codec : (t : MessageType) → Codec t.Message
  | netInfo => NetInfo.codec
  | nodeInfoList => NodeInfoList.codec
  | login => Login.codec
  | loginRes => LoginRes.codec
  | cpeNodeChangeNotify => CpeNodeChangeNotify.codec
  | keepAlive => KeepAlive.codec
  | keepAliveRes => KeepAliveRes.codec
  | data => Data.codec
  | custemorInfo => CustemorInfo.codec
  | custemorPEList => CustemorPEList.codec
  | userListOnEdge => UserListOnEdge.codec

/-- `ParseFromString`, which clears the message first. -/
def parseFromString {μ : Type} (c : Codec μ) (bs : Bytes) : Bool × μ :=
  c.parse recursionLimit c.empty bs

def MessageType.parseFromString (t : MessageType) (bs : Bytes) : Bool × t.Message :=
  Packet.parseFromString t.codec bs

end Cpe.Pro.Packet
