import Cpe.Main.Runs

/-! # Malformed session datagrams

Each layer that turns a datagram down returns before the state is changed,
with one exception: the inner parse of a keepalive response is not checked, and
what the parser left of the message becomes the node table. -/
namespace Cpe.Proofs.SessionErrors
open Cpe.Lib.ByteOrder Cpe.Lib.CString Cpe.Lib.Run Cpe.Pro Cpe.Main

/-- Table, cache, node list and routes are the same. -/
structure Untouched (s t : Server) : Prop where
  cpes : t.cpes = s.cpes
  cache : t.ip2nodeidCache = s.ip2nodeidCache
  nodeInfoList : t.config.nodeInfoList = s.config.nodeInfoList
  routes : t.routes = s.routes

theorem untouched_refl (s : Server) : Untouched s s := ⟨rfl, rfl, rfl, rfl⟩

/-- The one malformed message that gets past its parse. -/
theorem receive_malformed (pf : Platform) (s : Server) {msg : SessionMsg} (h : msg.Malformed) :
    s.receive pf msg = s ∨
      ∃ list, msg = .online false list ∧ s.receive pf msg = s.applyOnline list := by
  cases msg with
  | mesh parsed list =>
    have hparsed : parsed = false := h
    subst hparsed
    exact .inl rfl
  | online parsed list =>
    have hparsed : parsed = false := h
    subst hparsed
    exact .inr ⟨list, rfl, rfl⟩
  | _ => exact .inl rfl

theorem applyOnline_untouched_iff (s : Server) (list : UserListOnEdge) :
    Untouched s (s.applyOnline list) ↔ onlineTable list = s.cpes :=
  ⟨fun h => h.cpes, fun h => ⟨h, rfl, rfl, rfl⟩⟩

/-- **A malformed datagram changes nothing** exactly if it is no keepalive
response whose list fails to parse, or what was parsed of that list is the
table already. -/
theorem malformed_untouched_iff (pf : Platform) (s : Server) (data : Ptr) (len : U16)
    (h : (decodeSession pf data len).Malformed) :
    Untouched s (s.handleSessionDataRecv pf data len) ↔
      ∀ list, decodeSession pf data len = .online false list → onlineTable list = s.cpes := by
  rw [handleSessionDataRecv_eq]
  rcases receive_malformed pf s h with hs | ⟨list, hmsg, hs⟩
  · rw [hs]
    have hself := untouched_refl s
    constructor
    · intro _ list hmsg
      rw [hmsg] at hs
      exact congrArg Server.cpes hs
    · intro _
      exact hself
  · rw [hs, applyOnline_untouched_iff, hmsg]
    constructor
    · intro ht list' he
      cases he
      exact ht
    · intro ht
      exact ht list rfl

/-- A keepalive response whose payload is a tag of field number 0. -/
def tornKeepAlive : Bytes :=
  datagram .MESSAGE_KEEPALIVE_UDP_RES { metaInfo := [7] : KeepAliveRes }.serialize

/-- A state a mesh notify leads to. -/
def oneNode : Server :=
  run (Server.step ⟨wire, id⟩) (started ⟨wire, id⟩ 3 1 {} 9)
    [.meshNotify ⟨[{ nodeId := 2, virtualIp := str "10.0.0.2", netMask := 32 }]⟩]

/-- The response empties the table. -/
theorem torn_keepalive_clears :
    (decodeSession ⟨wire, id⟩ (Ptr.ofBytes tornKeepAlive) 7).Malformed ∧
      ¬ Untouched oneNode
        (oneNode.handleSessionDataRecv ⟨wire, id⟩ (Ptr.ofBytes tornKeepAlive) 7) := by
  refine ⟨by decide, ?_⟩
  intro h
  have hlen := congrArg List.length h.cpes
  revert hlen
  decide

/-- A response whose list has one CPE, and behind it a tag of field number 0. -/
def tornBehind : Bytes :=
  datagram .MESSAGE_KEEPALIVE_UDP_RES
    { metaInfo := (⟨[⟨[⟨str "3", str "10.0.0.3"⟩]⟩]⟩ : UserListOnEdge).serialize ++ [7] :
      KeepAliveRes }.serialize

/-- It changes nothing when the table has that CPE already. -/
theorem torn_keepalive_harmless :
    Untouched
      (run (Server.step ⟨wire, id⟩) (started ⟨wire, id⟩ 3 1 {} 9)
        [.keepAlive ⟨[⟨[⟨str "3", str "10.0.0.3"⟩]⟩]⟩])
      ((run (Server.step ⟨wire, id⟩) (started ⟨wire, id⟩ 3 1 {} 9)
        [.keepAlive ⟨[⟨[⟨str "3", str "10.0.0.3"⟩]⟩]⟩]).handleSessionDataRecv ⟨wire, id⟩
          (Ptr.ofBytes tornBehind) (BitVec.ofNat 16 tornBehind.length)) := by
  refine (malformed_untouched_iff ⟨wire, id⟩ _ (Ptr.ofBytes tornBehind) _ ?_).mpr ?_
  · decide +kernel
  · intro list hmsg
    have hlist : decodeSession ⟨wire, id⟩ (Ptr.ofBytes tornBehind)
        (BitVec.ofNat 16 tornBehind.length) =
          .online false ⟨[⟨[⟨str "3", str "10.0.0.3"⟩]⟩]⟩ := rfl
    rw [hlist] at hmsg
    cases hmsg
    decide +kernel

end Cpe.Proofs.SessionErrors
