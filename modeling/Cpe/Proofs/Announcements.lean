import Cpe.Proofs.Convergence
import Cpe.Proofs.PacketCodecs

/-! # Announcements

The network side announces the mesh and the CPEs that are online in datagrams
of the generated classes. What a node keeps of them is a directory: the
configured list, the node table and the routes. Over a run a node is the
directory of what was announced to it, in order, whatever else happens between:
a datagram that does not announce anything leaves the directory alone. -/
namespace Cpe.Proofs.Announcements
open Cpe.Lib.ByteOrder Cpe.Lib.CString Cpe.Lib.Run Cpe.Lib.ProtoWire Cpe.Lib.ProtoCodec
open Cpe.Pro Cpe.Pro.Packet Cpe.Main Cpe.Proofs.PacketCodecs Cpe.Proofs.Provenance
open Cpe.Proofs.Delivery

/-! ## What a datagram announces -/

/-- A message and the list in it. Of a list of online CPEs nobody looks at the
result of its parse: `torn` has one that the class does not accept. -/
inductive Announcement
  | mesh (notify : Packet.CpeNodeChangeNotify) (list : Packet.NodeInfoList)
  | online (pong : Packet.KeepAliveRes) (list : Packet.UserListOnEdge)
  | torn (pong : Packet.KeepAliveRes)

def announcedMesh (buff : Bytes) : Option Announcement :=
  let notify := parseFromString CpeNodeChangeNotify.codec buff
  let list := parseFromString NodeInfoList.codec notify.2.data
  if notify.1 ∧ notify.2.data ≠ [] ∧ list.1 then some (.mesh notify.2 list.2) else none

def announcedOnline (buff : Bytes) : Option Announcement :=
  let pong := parseFromString KeepAliveRes.codec buff
  let list := parseFromString UserListOnEdge.codec pong.2.metaInfo
  if pong.1 ∧ pong.2.metaInfo ≠ [] then
    some (if list.1 then .online pong.2 list.2 else .torn pong.2)
  else none

/-- What any datagram announces, read with the generated classes. -/
def announced (data : Ptr) (len : U16) : Option Announcement :=
  match sessionFrame data len with
  | none => none
  | some (uri, buff) =>
    if uri = MESSAGETYPE.MESSAGE_CPE_CHANGE_NOTIFY.value then announcedMesh buff
    else if uri = MESSAGETYPE.MESSAGE_KEEPALIVE_TCP_RES.value ∨
        uri = MESSAGETYPE.MESSAGE_KEEPALIVE_UDP_RES.value then announcedOnline buff
    else none

/-- What a callback announces. -/
def announcedBy : NodeEvent → Option Announcement
  | .session data len => announced data (len.setWidth 16)
  | _ => none

/-! ## The directory -/

/-- What a node keeps of what was announced to it. -/
structure Directory where
  infos : List NodeInfo
  table : List CpeNode
  routes : Finset Route

/-- What an announcement makes of the directory of the node `localId`. Of a torn
list the table has what the linked parser leaves. -/
def Directory.announce (pf : Platform) (localId : U32) (d : Directory) : Announcement → Directory
  | .mesh _ list =>
    let table := meshTable pf (nodeInfoListSeen list)
    { infos := meshInfos (nodeInfoListSeen list)
      table
      routes := d.routes \ routesOf localId d.table ∪ routesOf localId table }
  | .online _ list => { d with table := onlineTable (userListOnEdgeSeen list) }
  | .torn pong => { d with table := onlineTable (pf.proto.userListOnEdge pong.metaInfo).2 }

def directoryOf (n : Node) : Directory :=
  ⟨n.server.config.nodeInfoList, n.server.cpes, n.server.routes⟩

/-- An announcement as the server decodes it. -/
def Announcement.msg (pf : Platform) : Announcement → SessionMsg
  | mesh _ list => .mesh true (nodeInfoListSeen list)
  | online _ list => .online true (userListOnEdgeSeen list)
  | torn pong => .online false (pf.proto.userListOnEdge pong.metaInfo).2

section
variable {pf : Platform} (hproto : SeesClasses pf.proto) (s : Server)
include hproto

/-- A mesh notify does what it announces. -/
theorem receive_mesh (buff : Bytes) :
    s.receive pf (decodeMesh pf buff) =
      (announcedMesh buff).elim s fun a => s.receive pf (a.msg pf) := by
  unfold decodeMesh announcedMesh
  have hnotify := hproto.cpeNodeChangeNotify buff
  generalize parseFromString CpeNodeChangeNotify.codec buff = outer at hnotify ⊢
  obtain ⟨parsed, notify⟩ := outer
  cases parsed with
  | false =>
    simp only [hnotify.accepted, Bool.not_false, if_true, Bool.false_eq_true, false_and, if_false]
    rfl
  | true =>
    rw [hnotify.of_accepted]
    by_cases hdata : notify.data = []
    · simp [cpeNodeChangeNotifySeen, hdata, Server.receive]
    have hlist := hproto.nodeInfoList notify.data
    simp only [cpeNodeChangeNotifySeen, List.length_eq_zero_iff, hdata, hlist.accepted,
      Bool.not_true, Bool.false_eq_true, if_false, ne_eq, not_false_eq_true, true_and]
    generalize parseFromString NodeInfoList.codec notify.data = inner at hlist ⊢
    obtain ⟨listParsed, list⟩ := inner
    cases listParsed with
    | false => rfl
    | true =>
      rw [hlist.of_accepted]
      rfl

/-- A keepalive response does what it announces. -/
theorem receive_online (buff : Bytes) :
    s.receive pf (decodeOnline pf buff) =
      (announcedOnline buff).elim s fun a => s.receive pf (a.msg pf) := by
  unfold decodeOnline announcedOnline
  have hpong := hproto.keepAliveRes buff
  generalize parseFromString KeepAliveRes.codec buff = outer at hpong ⊢
  obtain ⟨parsed, pong⟩ := outer
  cases parsed with
  | false =>
    simp only [hpong.accepted, Bool.not_false, if_true, Bool.false_eq_true, false_and, if_false]
    rfl
  | true =>
    rw [hpong.of_accepted]
    by_cases hmeta : pong.metaInfo = []
    · simp [keepAliveResSeen, hmeta, Server.receive]
    have hlist := hproto.userListOnEdge pong.metaInfo
    simp only [keepAliveResSeen, List.length_eq_zero_iff, hmeta, hlist.accepted, Bool.not_true,
      Bool.false_eq_true, if_false, ne_eq, not_false_eq_true, and_self, if_true]
    generalize parseFromString UserListOnEdge.codec pong.metaInfo = inner at hlist ⊢
    obtain ⟨listParsed, list⟩ := inner
    cases listParsed with
    | false => rfl
    | true =>
      rw [hlist.of_accepted]
      rfl

/-- **A datagram does what it announces**, and nothing when it announces
nothing. -/
theorem receive_announced (data : Ptr) (len : U16) :
    s.receive pf (decodeSession pf data len) =
      (announced data len).elim s fun a => s.receive pf (a.msg pf) := by
  unfold decodeSession announced
  cases sessionFrame data len with
  | none => rfl
  | some frame =>
    simp only
    split
    · exact receive_mesh hproto s frame.2
    · split
      · exact receive_online hproto s frame.2
      · rfl

end

/-! ## Runs -/

section
variable {pf : Platform} {n : Node}

theorem directory_receive (n : Node) (a : Announcement) :
    directoryOf { n with server := n.server.receive pf (a.msg pf) } =
      (directoryOf n).announce pf n.server.localId a := by
  cases a <;> rfl

/-- One callback makes of the directory what it announces. -/
theorem directory_step (hproto : SeesClasses pf.proto) (hbuffer : BufferFits n)
    (hend : n.ended = false) (e : NodeEvent) :
    directoryOf (n.step pf e) =
      (announcedBy e).elim (directoryOf n) ((directoryOf n).announce pf n.server.localId) := by
  rw [step_running _ hend]
  cases e with
  | readable frame behind =>
    rw [Node.react]
    rcases onReadable_cases hbuffer frame behind with hstep | ⟨bytes, mem, _, _, _, hstep⟩
    · rw [hstep]
      rfl
    · obtain ⟨cache, hcache⟩ := dispatch_cache n.server bytes behind
      rw [hstep, hcache]
      rfl
  | session data len =>
    have hreact : n.react pf (.session data len) =
        { n with server := n.server.receive pf (decodeSession pf data (len.setWidth 16)) } := by
      rw [← handleSessionDataRecv_eq]
      rfl
    rw [hreact, receive_announced hproto, announcedBy]
    cases announced data (len.setWidth 16) with
    | none => rfl
    | some a => exact directory_receive n a
  | route data len write =>
    obtain ⟨written, ended, hstep⟩ := onRoute_cases n data len write
    rw [Node.react, hstep]
    rfl

theorem running_of_run {es : List NodeEvent}
    (h : (run (Node.step pf) n es).ended = false) : n.ended = false := by
  by_contra hended
  have hstay : run (Node.step pf) n es = n := by
    induction es with
    | nil => rfl
    | cons e es ih =>
      have hstep := step_ended pf (Bool.not_eq_false _ ▸ hended) e
      rw [run_cons, hstep] at h ⊢
      exact ih h
  rw [hstay] at h
  exact hended h

/-- **A node is the directory of what was announced to it.** While it runs, its
list, table and routes come from those at the start through the announcements
in order, whatever packets, messages and other datagrams come between them. -/
theorem directory_run (hproto : SeesClasses pf.proto) (hbuffer : BufferFits n)
    (es : List NodeEvent) (hend : (run (Node.step pf) n es).ended = false) :
    directoryOf (run (Node.step pf) n es) =
      (es.filterMap announcedBy).foldl (Directory.announce pf n.server.localId)
        (directoryOf n) := by
  induction es generalizing n with
  | nil => rfl
  | cons e es ih =>
    have hrunning := running_of_run hend
    rw [run_cons] at hend ⊢
    have hlocal : (n.step pf e).server.localId = n.server.localId :=
      localId_of_frame (Convergence.step_frame _ hbuffer e)
    rw [ih (bufferFits_step _ n e hbuffer) hend, hlocal, directory_step hproto hbuffer hrunning,
      List.filterMap_cons]
    cases announcedBy e <;> rfl

end

/-! ## Announcements that are sent -/

def Announcement.body : Announcement → Bytes
  | mesh notify _ => CpeNodeChangeNotify.codec.serialize notify
  | online pong _ | torn pong => KeepAliveRes.codec.serialize pong

/-- `udp` tells the two types of keepalive responses apart. -/
def Announcement.type (udp : Bool) : Announcement → MESSAGETYPE
  | mesh _ _ => .MESSAGE_CPE_CHANGE_NOTIFY
  | online _ _ | torn _ =>
    if udp then .MESSAGE_KEEPALIVE_UDP_RES else .MESSAGE_KEEPALIVE_TCP_RES

def Announcement.datagram (udp : Bool) (a : Announcement) : Bytes :=
  Main.datagram (a.type udp) a.body

/-- The list is what the class reads in its message, whose unknown fields are in
the form in which they are kept. -/
def Announcement.Announceable : Announcement → Prop
  | mesh notify list => CpeNodeChangeNotify.codec.Ok recursionLimit notify ∧ notify.data ≠ [] ∧
      parseFromString NodeInfoList.codec notify.data = (true, list)
  | online pong list => KeepAliveRes.codec.Ok recursionLimit pong ∧ pong.metaInfo ≠ [] ∧
      parseFromString UserListOnEdge.codec pong.metaInfo = (true, list)
  | torn pong => KeepAliveRes.codec.Ok recursionLimit pong ∧ pong.metaInfo ≠ [] ∧
      (parseFromString UserListOnEdge.codec pong.metaInfo).1 = false

section
variable {μ : Type} {c : Codec μ} {m : μ}

theorem parseFromString_own (hok : c.Ok recursionLimit m)
    (hsize : (c.serialize m).length ≤ maxSize) :
    parseFromString c (c.serialize m) = (true, m) := Codec.parse_own hok hsize

/-- Only the message without any field is written as nothing. -/
theorem serialize_ne_nil (hok : c.Ok recursionLimit m) (hne : m ≠ c.empty) :
    c.serialize m ≠ [] := by
  intro hnil
  have hown := Codec.parse_own hok (by rw [hnil]; exact Nat.zero_le _)
  rw [hnil, c.parse_nil] at hown
  exact hne (Prod.ext_iff.mp hown).2.symm

/-- What comes out of a parser is in its form. -/
theorem ok_of_parse (bs : Bytes) (h : parseFromString c bs = (true, m)) :
    c.Ok recursionLimit m := c.ok_parse (c.ok_empty recursionLimit) h

end

section
variable {a : Announcement}

theorem Announcement.Announceable.body_ne_nil (h : a.Announceable) : a.body ≠ [] := by
  cases a with
  | mesh notify list =>
    obtain ⟨hok, hdata, _⟩ := h
    exact serialize_ne_nil hok (fun he => hdata (he ▸ rfl))
  | online pong list =>
    obtain ⟨hok, hmeta, _⟩ := h
    exact serialize_ne_nil hok (fun he => hmeta (he ▸ rfl))
  | torn pong =>
    obtain ⟨hok, hmeta, _⟩ := h
    exact serialize_ne_nil hok (fun he => hmeta (he ▸ rfl))

/-- **What is sent is announced.** -/
theorem announced_datagram (udp : Bool) (h : a.Announceable)
    (hfits : (a.datagram udp).length ≤ 65535) {data : Ptr}
    (hmem : data.StartsWith (a.datagram udp)) :
    announced data (BitVec.ofNat 16 (a.datagram udp).length) = some a := by
  have hlen := datagram_length (a.type udp) a.body
  have hsize : a.body.length ≤ maxSize := by
    rw [Announcement.datagram, hlen] at hfits
    unfold maxSize
    omega
  rw [announced, Announcement.datagram, sessionFrame_datagram hmem h.body_ne_nil hfits]
  cases a with
  | mesh notify list =>
    obtain ⟨hok, hdata, hlist⟩ := h
    have hown := parseFromString_own hok hsize
    have hbody : announcedMesh (Announcement.mesh notify list).body = some (.mesh notify list) := by
      show announcedMesh (CpeNodeChangeNotify.codec.serialize notify) = _
      simp only [announcedMesh, hown, hlist, hdata, ne_eq, not_false_eq_true, and_self, if_true]
    exact hbody
  | online pong list =>
    obtain ⟨hok, hmeta, hlist⟩ := h
    have hown := parseFromString_own hok hsize
    have hbody : announcedOnline (Announcement.online pong list).body =
        some (.online pong list) := by
      show announcedOnline (KeepAliveRes.codec.serialize pong) = _
      simp only [announcedOnline, hown, hlist, hmeta, ne_eq, not_false_eq_true, and_self, if_true]
    cases udp <;> exact hbody
  | torn pong =>
    obtain ⟨hok, hmeta, hlist⟩ := h
    have hown := parseFromString_own hok hsize
    have hbody : announcedOnline (Announcement.torn pong).body = some (.torn pong) := by
      show announcedOnline (KeepAliveRes.codec.serialize pong) = _
      simp only [announcedOnline, hown, hlist, hmeta, ne_eq, not_false_eq_true, and_self, if_true,
        Bool.false_eq_true, if_false]
    cases udp <;> exact hbody

theorem setWidth_ofNat (k : Nat) : (BitVec.ofNat 32 k).setWidth 16 = BitVec.ofNat 16 k := by
  apply BitVec.eq_of_toNat_eq
  simp only [BitVec.toNat_setWidth, BitVec.toNat_ofNat]
  omega

/-- The arrival of an announcement. -/
def arrives (a : Announcement) : NodeEvent :=
  .session (Ptr.ofBytes (a.datagram true)) (BitVec.ofNat 32 (a.datagram true).length)

theorem announcedBy_arrives (h : a.Announceable) (hfits : (a.datagram true).length ≤ 65535) :
    announcedBy (arrives a) = some a := by
  rw [arrives, announcedBy, setWidth_ofNat]
  exact announced_datagram true h hfits (ofBytes_startsWith _)

end

/-! ## Three announcements -/

/-- A list of one node, with an entry of a field that is not known. -/
def newMesh : Announcement :=
  let list : Packet.NodeInfoList := { cpeList := [
    { nodeId := 2
      virtualIp := str "10.0.0.2"
      subnetIpStart := str "10.2.0.0/16"
      netMask := 16
      unknownFields := [56, 0] }] }
  .mesh { uid := [49], data := NodeInfoList.codec.serialize list } list

/-- A list that is no message. -/
def newTorn : Announcement := .torn { metaInfo := [7] }

def newOnline : Announcement :=
  let list : Packet.UserListOnEdge := { edgeList := [
    { edgeId := [51], cpeList := [{ cpeId := str "4", cpeIp := str "10.0.0.4" }] }] }
  .online { seq := 7, metaInfo := UserListOnEdge.codec.serialize list } list

theorem newMesh_announceable : newMesh.Announceable :=
  ⟨ok_of_parse newMesh.body rfl, by decide, rfl⟩

theorem newTorn_announceable : newTorn.Announceable :=
  ⟨ok_of_parse newTorn.body rfl, by decide, rfl⟩

theorem newOnline_announceable : newOnline.Announceable :=
  ⟨ok_of_parse newOnline.body rfl, by decide, rfl⟩

/-- A packet and a datagram of no type between three announcements. -/
def threeArrive : List NodeEvent :=
  [arrives newMesh, .readable (some packet) fun _ => 0,
    .session (Ptr.ofBytes [1, 0, 99, 0, 5]) 5, arrives newTorn, arrives newOnline]

theorem threeArrive_announced :
    threeArrive.filterMap announcedBy = [newMesh, newTorn, newOnline] := by
  have hpacket : announcedBy (.readable (some packet) fun _ => 0) = none := rfl
  have hother : announcedBy (.session (Ptr.ofBytes [1, 0, 99, 0, 5]) 5) = none := rfl
  simp only [threeArrive, List.filterMap_cons, List.filterMap_nil, hpacket, hother,
    announcedBy_arrives newMesh_announceable (by decide +kernel),
    announcedBy_arrives newTorn_announceable (by decide +kernel),
    announcedBy_arrives newOnline_announceable (by decide +kernel)]

theorem three_directory :
    directoryOf (run (Node.step ⟨wire, id⟩) (pair false) threeArrive) =
      [newMesh, newTorn, newOnline].foldl (Directory.announce ⟨wire, id⟩ 1)
        (directoryOf (pair false)) := by
  rw [← threeArrive_announced]
  exact directory_run wire_seen (pair_fresh false).buffer threeArrive (by decide +kernel)

end Cpe.Proofs.Announcements
