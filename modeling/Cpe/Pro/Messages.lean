import Cpe.Lib.ProtoWire

/-! # The messages of the session channel

The records of `login.proto`, `keepalive.proto` and `user_info.proto` with the
fields the server reads. `Protobuf` is the parser the server is linked with:
`ParseFromString` returns whether it succeeded and, also on failure, the
message as far as it was filled. `wire` is the parser of the generated code on
the wire format: it accepts the same inputs, with the same fields. Of an input
it refuses it leaves the fields before the one that it stops at; the linked
library may leave part of that one too, so results about refused inputs are
stated for any `Protobuf`. -/
namespace Cpe.Pro
open Cpe.Lib.ByteOrder Cpe.Lib.ProtoWire

structure NetInfo where
  nodeId : U32 := 0
  virtualIp : Bytes := []
  subnetIpStart : Bytes := []
  netMask : U32 := 0
  macAddr : Bytes := []
  metaInfo : Bytes := []
deriving DecidableEq, Repr

structure NodeInfoList where
  cpeList : List NetInfo := []
deriving DecidableEq, Repr

structure CpeNodeChangeNotify where
  data : Bytes := []
deriving DecidableEq, Repr

structure KeepAliveRes where
  metaInfo : Bytes := []
deriving DecidableEq, Repr

structure CustemorInfo where
  cpeId : Bytes := []
  cpeIp : Bytes := []
deriving DecidableEq, Repr

structure CustemorPEList where
  cpeList : List CustemorInfo := []
deriving DecidableEq, Repr

structure UserListOnEdge where
  edgeList : List CustemorPEList := []
deriving DecidableEq, Repr

/-- `ParseFromString` of the four messages the server parses. -/
structure Protobuf where
  cpeNodeChangeNotify : Bytes → Bool × CpeNodeChangeNotify
  keepAliveRes : Bytes → Bool × KeepAliveRes
  nodeInfoList : Bytes → Bool × NodeInfoList
  userListOnEdge : Bytes → Bool × UserListOnEdge

/-! ## The generated parsers

A field of an unknown number, or of a known number with another wire type, is
skipped. An embedded message is appended before it is parsed, so a failure
inside leaves what was read of it. A field whose bytes are cut short is not
appended here, see above. -/

/-- `default_recursion_limit_`. -/
def recursionLimit : Nat := 100

def NetInfo.onField (m : NetInfo) : Nat → Payload → Bool × NetInfo
  | 1, .varint v => (true, { m with nodeId := BitVec.ofNat 32 v })
  | 2, .len b => (true, { m with virtualIp := b })
  | 3, .len b => (true, { m with subnetIpStart := b })
  | 4, .varint v => (true, { m with netMask := BitVec.ofNat 32 v })
  | 5, .len b => (true, { m with macAddr := b })
  | 6, .len b => (true, { m with metaInfo := b })
  | _, _ => (true, m)

def NodeInfoList.onField (m : NodeInfoList) : Nat → Payload → Bool × NodeInfoList
  | 1, .len b =>
    let (ok, info) := parseMessage (recursionLimit - 1) NetInfo.onField {} b
    (ok, { m with cpeList := m.cpeList ++ [info] })
  | _, _ => (true, m)

def CpeNodeChangeNotify.onField (m : CpeNodeChangeNotify) :
    Nat → Payload → Bool × CpeNodeChangeNotify
  | 2, .len b => (true, { m with data := b })
  | _, _ => (true, m)

def KeepAliveRes.onField (m : KeepAliveRes) : Nat → Payload → Bool × KeepAliveRes
  | 5, .len b => (true, { m with metaInfo := b })
  | _, _ => (true, m)

def CustemorInfo.onField (m : CustemorInfo) : Nat → Payload → Bool × CustemorInfo
  | 1, .len b => (true, { m with cpeId := b })
  | 2, .len b => (true, { m with cpeIp := b })
  | _, _ => (true, m)

def CustemorPEList.onField (m : CustemorPEList) : Nat → Payload → Bool × CustemorPEList
  | 5, .len b =>
    let (ok, info) := parseMessage (recursionLimit - 2) CustemorInfo.onField {} b
    (ok, { m with cpeList := m.cpeList ++ [info] })
  | _, _ => (true, m)

def UserListOnEdge.onField (m : UserListOnEdge) : Nat → Payload → Bool × UserListOnEdge
  | 1, .len b =>
    let (ok, info) := parseMessage (recursionLimit - 1) CustemorPEList.onField {} b
    (ok, { m with edgeList := m.edgeList ++ [info] })
  | _, _ => (true, m)

def wire : Protobuf where
  cpeNodeChangeNotify := parseMessage recursionLimit CpeNodeChangeNotify.onField {}
  keepAliveRes := parseMessage recursionLimit KeepAliveRes.onField {}
  nodeInfoList := parseMessage recursionLimit NodeInfoList.onField {}
  userListOnEdge := parseMessage recursionLimit UserListOnEdge.onField {}

end Cpe.Pro
