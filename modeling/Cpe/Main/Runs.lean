import Cpe.Main.Updates
import Cpe.Pro.Encode

/-! # Runs of the server

A run takes packets from the device and datagrams from the network, in any
order. A dispatch in TUN mode is one lookup in a memo table. What no event
changes is the frame of a state. -/
namespace Cpe.Main
open Cpe.Lib.ByteOrder Cpe.Lib.Number Cpe.Lib.MemoTable Cpe.Lib.Run Cpe.Pro

inductive Event
  | packet (packet : Ptr)
  | session (data : Ptr) (len : U16)

/-- A dispatch in TUN mode, as a step. -/
def Server.tunStep (s : Server) (packet : Ptr) : Server := (s.getDestIDFromTunPacket packet).2

def Server.step (pf : Platform) (s : Server) : Event → Server
  | .packet packet => s.tunStep packet
  | .session data len => s.handleSessionDataRecv pf data len

/-- The datagram of a message: length, type and body. -/
def datagram (type : MESSAGETYPE) (body : Bytes) : Bytes :=
  bytes16 (BitVec.ofNat 16 body.length) ++ bytes16 type.value ++ body

theorem datagram_length (type : MESSAGETYPE) (body : Bytes) :
    (datagram type body).length = body.length + 4 := by
  rw [datagram, List.length_append, List.length_append, bytes16_length, bytes16_length,
    Nat.add_comm]

/-- What the header of a datagram in memory says. -/
theorem datagram_header {type : MESSAGETYPE} {body : Bytes} {data : Ptr}
    (hmem : data.StartsWith (datagram type body)) :
    data.load16 0 = BitVec.ofNat 16 body.length ∧ data.load16 2 = type.value ∧
      data.slice 4 body.length = body := by
  have hsize := datagram_length type body
  have hhead : (bytes16 (BitVec.ofNat 16 body.length) ++ bytes16 type.value).length = 4 := by
    rw [List.length_append, bytes16_length, bytes16_length]
  have hbody : (datagram type body).drop 4 = body := by
    rw [datagram, List.drop_left' hhead]
  have hfirst : data.StartsWith ([] ++ bytes16 (BitVec.ofNat 16 body.length) ++
      (bytes16 type.value ++ body)) := by
    rw [List.nil_append, ← List.append_assoc]
    exact hmem
  have hpack := load16_bytes16 hfirst
  have huri := load16_bytes16 hmem
  rw [bytes16_length] at huri
  refine ⟨hpack, huri, ?_⟩
  rw [slice_startsWith hmem (by omega), hbody, List.take_length]

/-- A datagram of at most 65535 bytes is a frame, of its type and body. -/
theorem sessionFrame_datagram {type : MESSAGETYPE} {body : Bytes} {data : Ptr}
    (hmem : data.StartsWith (datagram type body)) (hne : body ≠ [])
    (hfits : (datagram type body).length ≤ 65535) :
    sessionFrame data (BitVec.ofNat 16 (datagram type body).length) =
      some (type.value, body) := by
  obtain ⟨hpack, huri, hbody⟩ := datagram_header hmem
  have hsize := datagram_length type body
  have hpos : 0 < body.length := List.length_pos_iff.mpr hne
  have hlen : (BitVec.ofNat 16 (datagram type body).length).toNat = body.length + 4 := by
    rw [BitVec.toNat_ofNat, hsize]
    omega
  have hshort : 4 < BitVec.ofNat 16 (datagram type body).length := by
    have hfour : BitVec.toNat (4 : U16) = 4 := by decide
    rw [BitVec.lt_def, hlen, hfour]
    omega
  have hfit : (BitVec.ofNat 16 (datagram type body).length).toNat =
      (data.load16 0).toNat + 4 := by
    rw [hlen, hpack, BitVec.toNat_ofNat]
    omega
  rw [sessionFrame, if_pos ⟨hshort, hfit⟩, hlen, Nat.add_sub_cancel, hbody, huri]

def Event.ofMessage (type : MESSAGETYPE) (body : Bytes) : Event :=
  .session (Ptr.ofBytes (datagram type body)) (BitVec.ofNat 16 (datagram type body).length)

/-- The arrival of a mesh list. -/
def Event.meshNotify (list : NodeInfoList) : Event :=
  .ofMessage .MESSAGE_CPE_CHANGE_NOTIFY { data := list.serialize : CpeNodeChangeNotify }.serialize

/-- The arrival of a list of online CPEs. -/
def Event.keepAlive (list : UserListOnEdge) : Event :=
  .ofMessage .MESSAGE_KEEPALIVE_UDP_RES { metaInfo := list.serialize : KeepAliveRes }.serialize

/-- The header of a packet to `ip`, up to its destination. -/
def packetTo (ip : U32) : Ptr := Ptr.ofBytes (List.replicate 16 0 ++ bytes32 (htonl ip))

/-- A server as `main` sets it up. -/
def started (pf : Platform) (fd id : U32) (config : MzConfig) (gatewayId : U32) : Server :=
  (Server.create pf fd id config).setGatewayId gatewayId

/-- The table the constructor makes of the configured list. -/
def configTable (pf : Platform) (config : MzConfig) : List CpeNode :=
  config.nodeInfoList.map (meshNode pf)

theorem started_eq (pf : Platform) (fd id : U32) (config : MzConfig) (gatewayId : U32) :
    started pf fd id config gatewayId =
      { tunTapDevFd := fd
        gatewayId := gatewayId
        nodeId := intText id
        config := config
        ip2nodeidCache := Memo.empty
        cpes := configTable pf config
        routes := routesOf (atoi (intText id)) (configTable pf config) } := by
  rw [started, Server.create, initMeshCpes_eq, addRouteForNodes_eq]
  simp only [Server.setGatewayId, Server.localId, Finset.empty_union]
  rfl

/-! ## Frames -/

/-- The parts of a state that no packet and no datagram changes. -/
def Server.frame (s : Server) : Server :=
  { s with
    ip2nodeidCache := Memo.empty
    cpes := []
    routes := ∅
    config := { s.config with nodeInfoList := [] } }

theorem cacheDest_frame (s : Server) (ip destID : U32) :
    (s.cacheDest ip destID).frame = s.frame := by
  unfold Server.cacheDest
  split <;> rfl

theorem receive_frame (pf : Platform) (s : Server) (msg : SessionMsg) :
    (s.receive pf msg).frame = s.frame := by
  cases msg with
  | mesh parsed list => cases parsed <;> rfl
  | _ => rfl

theorem step_frame (pf : Platform) (s : Server) (e : Event) : (s.step pf e).frame = s.frame := by
  cases e with
  | packet packet => exact cacheDest_frame s _ _
  | session data len =>
    rw [Server.step, handleSessionDataRecv_eq]
    exact receive_frame pf s _

section
variable {s t : Server}

theorem localId_of_frame (h : s.frame = t.frame) : s.localId = t.localId := by
  have hf : s.frame.localId = t.frame.localId := by rw [h]
  exact hf

theorem gatewayId_of_frame (h : s.frame = t.frame) : s.gatewayId = t.gatewayId := by
  have hf : s.frame.gatewayId = t.frame.gatewayId := by rw [h]
  exact hf

theorem fallback_of_frame (h : s.frame = t.frame) : s.fallback = t.fallback := by
  have hf : s.frame.fallback = t.frame.fallback := by rw [h]
  exact hf

end

/-! ## Dispatch in TUN mode -/

def Server.TunMode (s : Server) : Prop := s.config.tapMode = 0 ∧ s.config.onlyAcc = 0

theorem tunMode_of_frame {s t : Server} (h : s.frame = t.frame) (hs : s.TunMode) : t.TunMode := by
  have hf : t.frame.TunMode := h ▸ hs
  exact hf

/-- The ids a dispatch remembers: neither 0 nor the gateway's. -/
def keepsId (gatewayId destID : U32) : Bool := destID ≠ 0 ∧ destID ≠ gatewayId

theorem cacheDest_eq (s : Server) (ip destID : U32) :
    s.cacheDest ip destID =
      { s with ip2nodeidCache := s.ip2nodeidCache.learn (keepsId s.gatewayId) ip destID } := by
  unfold Server.cacheDest Memo.learn keepsId
  simp only [decide_eq_true_eq, and_assoc]
  split <;> rfl

/-- The lookup of an address in TUN mode, with an empty cache. -/
def Server.tunLookup (s : Server) (ip : U32) : U32 := s.uncached ip defaultMac

theorem tunLookup_eq {s : Server} (h : s.TunMode) (ip : U32) :
    s.tunLookup ip = ((owner s.cpes ip).map CpeNode.nodeID).getD s.fallback := by
  rw [Server.tunLookup, uncached_eq h.2, hit_tun h.1]

/-- **A dispatch in TUN mode** answers from the memo table and extends it. -/
theorem getDestIDFromTunPacket_eq {s : Server} (h : s.TunMode) (packet : Ptr) :
    s.getDestIDFromTunPacket packet =
      (s.ip2nodeidCache.answer (tunDestIP packet) (s.tunLookup (tunDestIP packet)),
        { s with
          ip2nodeidCache := s.ip2nodeidCache.learn (keepsId s.gatewayId) (tunDestIP packet)
            (s.tunLookup (tunDestIP packet)) }) := by
  unfold Server.getDestIDFromTunPacket
  rw [getNodeIDFromIP_eq h.2]
  simp only [cacheDest_eq, learn_answer]
  rfl

/-- The fallback is never remembered. -/
theorem keepsId_fallback (s : Server) : keepsId s.gatewayId s.fallback = false := by
  unfold keepsId Server.fallback
  split <;> simp

/-- A miss is answered with the fallback, so an id that is remembered is the
answer exactly if the first node that covers the address has it. -/
theorem tunLookup_eq_iff {s : Server} (h : s.TunMode) {ip nodeId : U32}
    (hkept : keepsId s.gatewayId nodeId = true) :
    s.tunLookup ip = nodeId ↔ ∃ node, owner s.cpes ip = some node ∧ node.nodeID = nodeId := by
  rw [tunLookup_eq h]
  cases owner s.cpes ip with
  | some node => simp
  | none =>
    have hne : s.fallback ≠ nodeId := by
      intro he
      rw [← he, keepsId_fallback] at hkept
      cases hkept
    simp [hne]

/-- Every entry of the cache is what a lookup with an empty cache gives. -/
def CacheAgrees (s : Server) : Prop :=
  ∀ ip nodeId, s.ip2nodeidCache ip = some nodeId → s.uncached ip defaultMac = nodeId

/-! ## Steps -/

theorem tunStep_eq {s : Server} (h : s.TunMode) (packet : Ptr) :
    s.tunStep packet =
      { s with
        ip2nodeidCache := s.ip2nodeidCache.learn (keepsId s.gatewayId) (tunDestIP packet)
          (s.tunLookup (tunDestIP packet)) } := by
  rw [Server.tunStep, getDestIDFromTunPacket_eq h]

/-- A sequence of dispatches teaches the cache their lookups. -/
theorem run_tunStep {s : Server} (h : s.TunMode) (packets : List Ptr) :
    run Server.tunStep s packets =
      { s with
        ip2nodeidCache := s.ip2nodeidCache.learnAll (keepsId s.gatewayId)
          ((packets.map tunDestIP).map fun ip => (ip, s.tunLookup ip)) } := by
  induction packets generalizing s with
  | nil => rfl
  | cons packet packets ih =>
    have h' : (s.tunStep packet).TunMode := by
      rw [tunStep_eq h]
      exact h
    rw [run_cons, ih h', tunStep_eq h]
    rfl

/-- A dispatch changes nothing but the cache, in every mode. -/
theorem tunStep_cache (s : Server) (packet : Ptr) :
    ∃ m, s.tunStep packet = { s with ip2nodeidCache := m } :=
  ⟨_, cacheDest_eq s _ _⟩

theorem step_session (pf : Platform) (s : Server) (data : Ptr) (len : U16) :
    s.step pf (.session data len) = s.receive pf (decodeSession pf data len) :=
  handleSessionDataRecv_eq pf s data len

end Cpe.Main
