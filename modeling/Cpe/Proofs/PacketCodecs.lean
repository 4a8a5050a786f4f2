import Cpe.Pro.Packets

/-! # What the message classes keep

What a class writes is read back, messages one behind the other are merged, and
the parsers of the server see the fields of the messages that the classes
accept. -/
namespace Cpe.Proofs.PacketCodecs
open Cpe.Lib.ByteOrder Cpe.Lib.ProtoWire Cpe.Lib.ProtoCodec Cpe.Pro Cpe.Pro.Packet

/-! ## Written messages -/

section
variable (t : MessageType)

/-- **What comes out of an accepted input reads back** as it is written again,
with the fields of other numbers, and is as long as it was counted. -/
theorem accepted_reads_back {bs : Bytes} {m : t.Message} (h : t.parseFromString bs = (true, m))
    (hsize : (t.codec.serialize m).length ≤ maxSize) :
    t.parseFromString (t.codec.serialize m) = (true, m) ∧
      t.codec.byteSize m = (t.codec.serialize m).length :=
  ⟨Codec.parse_own (t.codec.ok_parse (t.codec.ok_empty recursionLimit) h) hsize,
    t.codec.byteSize_eq hsize⟩

/-- A login with a field of number 7 and with its network information in two parts. -/
def login : Packet.Login :=
  { uid := [97], netinfo := some { nodeId := 5, netMask := 24 }, unknownFields := [56, 0] }

theorem login_reads_back :
    MessageType.login.parseFromString (MessageType.login.codec.serialize login) = (true, login) ∧
      MessageType.login.codec.byteSize login = 11 :=
  have hparse : MessageType.login.parseFromString
      [10, 1, 97, 26, 2, 8, 5, 56, 0, 26, 2, 32, 24] = (true, login) := rfl
  accepted_reads_back .login hparse (by decide)

/-- A message that came out of an input and can be written. -/
def Parsed (m : t.Message) : Prop :=
  (∃ bs, t.parseFromString bs = (true, m)) ∧ (t.codec.serialize m).length ≤ maxSize

def written (ms : List t.Message) : Bytes := ms.flatMap t.codec.serialize

def merged (ms : List t.Message) : t.Message := ms.foldl t.codec.mergeFrom t.codec.empty

theorem merged_append (ms ms' : List t.Message) :
    merged t (ms ++ ms') = t.codec.mergeFrom (merged t ms) (merged t ms') := by
  induction ms' using List.reverseRecOn with
  | nil =>
    rw [List.append_nil]
    exact (t.codec.mergeFrom_empty (merged t ms)).symm
  | append_singleton ms' m ih =>
    have hlast : ∀ ms, merged t (ms ++ [m]) = t.codec.mergeFrom (merged t ms) m :=
      fun ms => List.foldl_append
    rw [← List.append_assoc, hlast, hlast, ih, t.codec.mergeFrom_assoc]

/-- **Written messages one behind the other are merged**, and the parts of such a
sequence can be merged on their own. -/
theorem written_merges {ms ms' : List t.Message} (h : ∀ m ∈ ms ++ ms', Parsed t m) :
    t.parseFromString (written t ms ++ written t ms') =
      (true, t.codec.mergeFrom (merged t ms) (merged t ms')) := by
  have hok : ∀ m ∈ ms ++ ms', t.codec.Ok recursionLimit m := by
    intro m hm
    obtain ⟨⟨bs, hparse⟩, _⟩ := h m hm
    exact t.codec.ok_parse (t.codec.ok_empty recursionLimit) hparse
  have hsize : ∀ m ∈ ms ++ ms', (t.codec.serialize m).length ≤ maxSize := fun m hm => (h m hm).2
  rw [← merged_append, merged, MessageType.parseFromString, Packet.parseFromString, written,
    written, ← List.flatMap_append]
  exact Codec.parse_flatMap hok hsize t.codec.empty

/-- Of two logins the later values stay, and all bytes of unknown fields. -/
theorem logins_merge :
    MessageType.login.parseFromString
        (written .login [login] ++ written .login [{ token := [98], netinfo := some {} }]) =
      (true, { login with token := [98] }) := by
  refine written_merges .login fun m hm => ?_
  rcases List.mem_cons.mp hm with rfl | hm
  · exact ⟨⟨[10, 1, 97, 26, 2, 8, 5, 56, 0, 26, 2, 32, 24], rfl⟩, by decide⟩
  · rw [List.mem_singleton.mp hm]
    exact ⟨⟨[18, 1, 98, 26, 0], rfl⟩, by decide⟩

end

/-! ## Views of the server -/

def netInfoSeen (m : Packet.NetInfo) : Pro.NetInfo :=
  { nodeId := m.nodeId, virtualIp := m.virtualIp, subnetIpStart := m.subnetIpStart,
    netMask := m.netMask, macAddr := m.macAddr, metaInfo := m.metaInfo }

def nodeInfoListSeen (m : Packet.NodeInfoList) : Pro.NodeInfoList :=
  { cpeList := m.cpeList.map netInfoSeen }

def cpeNodeChangeNotifySeen (m : Packet.CpeNodeChangeNotify) : Pro.CpeNodeChangeNotify :=
  { data := m.data }

def keepAliveResSeen (m : Packet.KeepAliveRes) : Pro.KeepAliveRes := { metaInfo := m.metaInfo }

def custemorInfoSeen (m : Packet.CustemorInfo) : Pro.CustemorInfo :=
  { cpeId := m.cpeId, cpeIp := m.cpeIp }

def custemorPEListSeen (m : Packet.CustemorPEList) : Pro.CustemorPEList :=
  { cpeList := m.cpeList.map custemorInfoSeen }

def userListOnEdgeSeen (m : Packet.UserListOnEdge) : Pro.UserListOnEdge :=
  { edgeList := m.edgeList.map custemorPEListSeen }

/-- A result as the server sees it. -/
def seen {μ ν : Type} (view : μ → ν) (r : Bool × μ) : Bool × ν := (r.1, view r.2)

theorem netInfo_seen (depth : Nat) (m : Packet.NetInfo) (bs : Bytes) :
    parseMessage depth Pro.NetInfo.onField (netInfoSeen m) bs =
      seen netInfoSeen (NetInfo.codec.parse depth m bs) := by
  refine Fields.parse_view netInfoSeen ?_ m bs
  rintro ⟨r, unknown⟩ ⟨num, p, copy⟩
  rcases num with _ | _ | _ | _ | _ | _ | _ | num <;> cases p <;> rfl

theorem custemorInfo_seen (depth : Nat) (m : Packet.CustemorInfo) (bs : Bytes) :
    parseMessage depth Pro.CustemorInfo.onField (custemorInfoSeen m) bs =
      seen custemorInfoSeen (CustemorInfo.codec.parse depth m bs) := by
  refine Fields.parse_view custemorInfoSeen ?_ m bs
  rintro ⟨r, unknown⟩ ⟨num, p, copy⟩
  rcases num with _ | _ | _ | _ | num <;> cases p <;> rfl

theorem nodeInfoList_seen (m : Packet.NodeInfoList) (bs : Bytes) :
    parseMessage recursionLimit Pro.NodeInfoList.onField (nodeInfoListSeen m) bs =
      seen nodeInfoListSeen (NodeInfoList.codec.parse recursionLimit m bs) := by
  refine Fields.parse_view nodeInfoListSeen ?_ m bs
  rintro ⟨⟨cpeList, _⟩, unknown⟩ ⟨num, p, copy⟩
  rcases num with _ | _ | num
  · cases p <;> rfl
  · cases p with
    | len b =>
      have hentry : parseMessage (recursionLimit - 1) Pro.NetInfo.onField {} b =
          seen netInfoSeen (NetInfo.codec.parse (recursionLimit - 1) NetInfo.codec.empty b) :=
        netInfo_seen _ NetInfo.codec.empty b
      simp only [Pro.NodeInfoList.onField, hentry]
      exact Prod.ext rfl
        (congrArg Pro.NodeInfoList.mk (@List.map_append _ _ netInfoSeen cpeList [_]).symm)
    | _ => rfl
  · cases p <;> rfl

theorem custemorPEList_seen (m : Packet.CustemorPEList) (bs : Bytes) :
    parseMessage (recursionLimit - 1) Pro.CustemorPEList.onField (custemorPEListSeen m) bs =
      seen custemorPEListSeen (CustemorPEList.codec.parse (recursionLimit - 1) m bs) := by
  refine Fields.parse_view custemorPEListSeen ?_ m bs
  rintro ⟨⟨edgeId, edgeIp, edgePort, edgeGroup, cpeList, _⟩, unknown⟩ ⟨num, p, copy⟩
  rcases num with _ | _ | _ | _ | _ | _ | num
  case succ.succ.succ.succ.succ.zero =>
    cases p with
    | len b =>
      have hentry : parseMessage (recursionLimit - 2) Pro.CustemorInfo.onField {} b =
          seen custemorInfoSeen
            (CustemorInfo.codec.parse (recursionLimit - 2) CustemorInfo.codec.empty b) :=
        custemorInfo_seen _ CustemorInfo.codec.empty b
      simp only [Pro.CustemorPEList.onField, hentry]
      exact Prod.ext rfl
        (congrArg Pro.CustemorPEList.mk (@List.map_append _ _ custemorInfoSeen cpeList [_]).symm)
    | _ => rfl
  all_goals cases p <;> rfl

theorem userListOnEdge_seen (m : Packet.UserListOnEdge) (bs : Bytes) :
    parseMessage recursionLimit Pro.UserListOnEdge.onField (userListOnEdgeSeen m) bs =
      seen userListOnEdgeSeen (UserListOnEdge.codec.parse recursionLimit m bs) := by
  refine Fields.parse_view userListOnEdgeSeen ?_ m bs
  rintro ⟨⟨edgeList, _⟩, unknown⟩ ⟨num, p, copy⟩
  rcases num with _ | _ | num
  · cases p <;> rfl
  · cases p with
    | len b =>
      have hentry : parseMessage (recursionLimit - 1) Pro.CustemorPEList.onField {} b =
          seen custemorPEListSeen
            (CustemorPEList.codec.parse (recursionLimit - 1) CustemorPEList.codec.empty b) :=
        custemorPEList_seen CustemorPEList.codec.empty b
      simp only [Pro.UserListOnEdge.onField, hentry]
      exact Prod.ext rfl
        (congrArg Pro.UserListOnEdge.mk (@List.map_append _ _ custemorPEListSeen edgeList [_]).symm)
    | _ => rfl
  · cases p <;> rfl

theorem cpeNodeChangeNotify_seen (m : Packet.CpeNodeChangeNotify) (bs : Bytes) :
    parseMessage recursionLimit Pro.CpeNodeChangeNotify.onField (cpeNodeChangeNotifySeen m) bs =
      seen cpeNodeChangeNotifySeen (CpeNodeChangeNotify.codec.parse recursionLimit m bs) := by
  refine Fields.parse_view cpeNodeChangeNotifySeen ?_ m bs
  rintro ⟨r, unknown⟩ ⟨num, p, copy⟩
  rcases num with _ | _ | _ | num <;> cases p <;> rfl

theorem keepAliveRes_seen (m : Packet.KeepAliveRes) (bs : Bytes) :
    parseMessage recursionLimit Pro.KeepAliveRes.onField (keepAliveResSeen m) bs =
      seen keepAliveResSeen (KeepAliveRes.codec.parse recursionLimit m bs) := by
  refine Fields.parse_view keepAliveResSeen ?_ m bs
  rintro ⟨r, unknown⟩ ⟨num, p, copy⟩
  rcases num with _ | _ | _ | _ | _ | _ | num <;> cases p <;> rfl

/-- The server's parser accepts what the class accepts, and has then the fields
that the server reads. Of an input that is not accepted nothing is said: what a
parse that fails leaves is not modelled here. -/
structure Sees {μ ν : Type} (view : μ → ν) (own : Bool × ν) (whole : Bool × μ) : Prop where
  accepted : own.1 = whole.1
  fields : whole.1 = true → own.2 = view whole.2

theorem Sees.of_seen {μ ν : Type} {view : μ → ν} {own : Bool × ν} {whole : Bool × μ}
    (h : own = seen view whole) : Sees view own whole := by
  subst h
  exact ⟨rfl, fun _ => rfl⟩

theorem Sees.of_accepted {μ ν : Type} {view : μ → ν} {own : Bool × ν} {m : μ}
    (h : Sees view own (true, m)) : own = (true, view m) := Prod.ext h.accepted (h.fields rfl)

/-- The four parsers of the server see the messages of the classes. -/
structure SeesClasses (proto : Protobuf) : Prop where
  keepAliveRes : ∀ bs, Sees keepAliveResSeen (proto.keepAliveRes bs)
    (parseFromString KeepAliveRes.codec bs)
  cpeNodeChangeNotify : ∀ bs, Sees cpeNodeChangeNotifySeen (proto.cpeNodeChangeNotify bs)
    (parseFromString CpeNodeChangeNotify.codec bs)
  nodeInfoList : ∀ bs, Sees nodeInfoListSeen (proto.nodeInfoList bs)
    (parseFromString NodeInfoList.codec bs)
  userListOnEdge : ∀ bs, Sees userListOnEdgeSeen (proto.userListOnEdge bs)
    (parseFromString UserListOnEdge.codec bs)

/-- **The server parses what the classes parse**: each of the four parsers
accepts just what the class accepts, with the fields the server reads. -/
theorem wire_seen : SeesClasses wire where
  keepAliveRes bs := .of_seen (keepAliveRes_seen KeepAliveRes.codec.empty bs)
  cpeNodeChangeNotify bs := .of_seen (cpeNodeChangeNotify_seen CpeNodeChangeNotify.codec.empty bs)
  nodeInfoList bs := .of_seen (nodeInfoList_seen NodeInfoList.codec.empty bs)
  userListOnEdge bs := .of_seen (userListOnEdge_seen UserListOnEdge.codec.empty bs)

end Cpe.Proofs.PacketCodecs
