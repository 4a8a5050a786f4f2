import Cpe.Main.Runs

/-! # The cache in TAP mode

In TAP mode a lookup takes the destination address and the destination MAC of a
frame, and the cache keeps its answer under the address alone. What a history
of frames leaves in the cache is the answer of its first frame to each address
that matched a node; another frame to that address is sent right exactly if it
matches the same node id. -/
namespace Cpe.Proofs.TapCache
open Cpe.Lib.ByteOrder Cpe.Lib.CString Cpe.Lib.MemoTable Cpe.Lib.Run Cpe.Pro Cpe.Main

/-- The frames whose destination is looked up. -/
def Unicast (frame : Ptr) : Prop := tapProto frame = ETH_P_IP ∧ tapDestIP frame < 0xE0000000

instance (frame : Ptr) : Decidable (Unicast frame) := inferInstanceAs (Decidable (_ ∧ _))

/-- The first node of the table that matches a frame, by address or by MAC. -/
def matchOf (s : Server) (frame : Ptr) : Option CpeNode :=
  s.hit (tapDestIP frame) (tapDestMac frame) s.cpes

def tapLookup (s : Server) (frame : Ptr) : U32 := s.uncached (tapDestIP frame) (tapDestMac frame)

theorem tapLookup_eq {s : Server} (hacc : s.config.onlyAcc = 0) (frame : Ptr) :
    tapLookup s frame = ((matchOf s frame).map CpeNode.nodeID).getD s.fallback :=
  uncached_eq hacc _ _

/-- A frame is remembered under its address when it matches a node with an id
that is kept. -/
def Remembered (s : Server) (frame : Ptr) : Prop :=
  Unicast frame ∧ ∃ node, matchOf s frame = some node ∧ keepsId s.gatewayId node.nodeID = true

instance (s : Server) (frame : Ptr) : Decidable (Remembered s frame) :=
  inferInstanceAs (Decidable (_ ∧ ∃ node, matchOf s frame = some node ∧ _))

/-- The first frame of a history that is remembered under an address. -/
def firstRemembered (s : Server) (ip : U32) (frames : List Ptr) : Option Ptr :=
  frames.find? fun frame => tapDestIP frame = ip ∧ Remembered s frame

def tapStep (s : Server) (frame : Ptr) : Server := (s.getDestIDFromTapPacket frame).2

/-- **A dispatch in TAP mode** of a frame that is looked up. -/
theorem getDestIDFromTapPacket_eq {s : Server} (hacc : s.config.onlyAcc = 0) {frame : Ptr}
    (h : Unicast frame) :
    s.getDestIDFromTapPacket frame =
      (s.ip2nodeidCache.answer (tapDestIP frame) (tapLookup s frame),
        { s with
          ip2nodeidCache := s.ip2nodeidCache.learn (keepsId s.gatewayId) (tapDestIP frame)
            (tapLookup s frame) }) := by
  unfold Server.getDestIDFromTapPacket
  simp only [h.1, h.2, if_true, getNodeIDFromIP_eq hacc, cacheDest_eq, learn_answer]
  rfl

theorem tapStep_eq {s : Server} (hacc : s.config.onlyAcc = 0) {frame : Ptr} (h : Unicast frame) :
    tapStep s frame =
      { s with
        ip2nodeidCache := s.ip2nodeidCache.learn (keepsId s.gatewayId) (tapDestIP frame)
          (tapLookup s frame) } := by
  rw [tapStep, getDestIDFromTapPacket_eq hacc h]

/-- The other frames go where their header says, whatever the state. -/
theorem getDestIDFromTapPacket_other {frame : Ptr} (h : ¬ Unicast frame) :
    ∃ destID, ∀ s : Server, s.getDestIDFromTapPacket frame = (destID, s) := by
  unfold Server.getDestIDFromTapPacket
  by_cases hproto : tapProto frame = ETH_P_IP
  · have hip : ¬ tapDestIP frame < 0xE0000000 := fun hlt => h ⟨hproto, hlt⟩
    simp only [hproto, hip, if_true, if_false]
    split
    · exact ⟨_, fun s => rfl⟩
    · split
      · exact ⟨_, fun s => rfl⟩
      · exact ⟨_, fun s => rfl⟩
  · simp only [hproto, if_false]
    split
    · exact ⟨_, fun s => rfl⟩
    · exact ⟨_, fun s => rfl⟩

/-- The lookups of a history, in order. -/
def lookups (s : Server) (frames : List Ptr) : List (U32 × U32) :=
  (frames.filter fun frame => Unicast frame).map fun frame => (tapDestIP frame, tapLookup s frame)

/-- A history changes the cache only, and the cache learns its lookups. -/
theorem run_tapStep {s : Server} (hacc : s.config.onlyAcc = 0) (frames : List Ptr) :
    run tapStep s frames =
      { s with
        ip2nodeidCache := s.ip2nodeidCache.learnAll (keepsId s.gatewayId) (lookups s frames) } := by
  induction frames generalizing s with
  | nil => rfl
  | cons frame frames ih =>
    rw [run_cons]
    by_cases h : Unicast frame
    · have hacc' : (tapStep s frame).config.onlyAcc = 0 := by
        rw [tapStep_eq hacc h]
        exact hacc
      rw [ih hacc', tapStep_eq hacc h]
      simp only [lookups, List.filter_cons, h, decide_true, if_true, List.map_cons, learnAll_cons]
      rfl
    · obtain ⟨destID, hd⟩ := getDestIDFromTapPacket_other h
      have hstep : tapStep s frame = s := congrArg Prod.snd (hd s)
      rw [hstep, ih hacc]
      simp [lookups, h]

theorem keepsId_tapLookup {s : Server} (hacc : s.config.onlyAcc = 0) (frame : Ptr) :
    keepsId s.gatewayId (tapLookup s frame) = true ↔
      ∃ node, matchOf s frame = some node ∧ keepsId s.gatewayId node.nodeID = true := by
  rw [tapLookup_eq hacc]
  cases matchOf s frame with
  | none => simp [keepsId_fallback]
  | some node => simp

/-- What a history leaves in an empty cache for an address. -/
theorem cache_after_history {s : Server} (hacc : s.config.onlyAcc = 0)
    (hcache : s.ip2nodeidCache = Memo.empty) (frames : List Ptr) (ip : U32) :
    (run tapStep s frames).ip2nodeidCache ip =
      (firstRemembered s ip frames).map (tapLookup s) := by
  have hrun : (run tapStep s frames).ip2nodeidCache =
      s.ip2nodeidCache.learnAll (keepsId s.gatewayId) (lookups s frames) := by
    rw [run_tapStep hacc]
  have hnone : s.ip2nodeidCache ip = none := by
    rw [hcache]
    rfl
  rw [hrun, learnAll_of_none hnone, lookups, List.find?_map, List.find?_filter, Option.map_map]
  have hpred : (fun frame => decide (decide (Unicast frame) = true ∧
      ((fun p : U32 × U32 => decide (p.1 = ip ∧ keepsId s.gatewayId p.2 = true)) ∘
        fun frame => (tapDestIP frame, tapLookup s frame)) frame = true)) =
      fun frame => decide (tapDestIP frame = ip ∧ Remembered s frame) := by
    funext frame
    have hkeep := keepsId_tapLookup hacc frame
    simp only [Function.comp_apply, decide_eq_true_eq, Remembered, hkeep]
    exact decide_eq_decide.mpr and_left_comm
  rw [hpred]
  rfl

/-- The first remembered frame to the same address matched the same node id. -/
def SameMatch (s : Server) (frames : List Ptr) (frame : Ptr) : Prop :=
  ∀ first node, firstRemembered s (tapDestIP frame) frames = some first →
    matchOf s first = some node →
    ∃ node', matchOf s frame = some node' ∧ node'.nodeID = node.nodeID

theorem firstRemembered_matches {s : Server} {ip : U32} {frames : List Ptr} {first : Ptr}
    (h : firstRemembered s ip frames = some first) :
    ∃ node, matchOf s first = some node ∧ keepsId s.gatewayId node.nodeID = true := by
  have hfound := List.find?_some h
  exact (of_decide_eq_true hfound).2.2

/-- A frame that is looked up is answered from the history exactly as without
it when both matches have one id. A frame without a match goes to the fallback,
which is no remembered id. -/
theorem answer_eq_iff {s : Server} (hacc : s.config.onlyAcc = 0) (frames : List Ptr)
    (frame : Ptr) :
    ((firstRemembered s (tapDestIP frame) frames).map (tapLookup s)).getD (tapLookup s frame) =
      tapLookup s frame ↔ SameMatch s frames frame := by
  unfold SameMatch
  cases hf : firstRemembered s (tapDestIP frame) frames with
  | none => simp
  | some first =>
    obtain ⟨node, hnode, hkept⟩ := firstRemembered_matches hf
    have hfirst : tapLookup s first = node.nodeID := by
      rw [tapLookup_eq hacc, hnode]
      rfl
    rw [Option.map_some, Option.getD_some, hfirst, tapLookup_eq hacc]
    cases hm : matchOf s frame with
    | some node' =>
      constructor
      · intro heq first' n hfirst' hn
        cases hfirst'
        rw [hnode] at hn
        cases hn
        exact ⟨node', rfl, heq.symm⟩
      · intro hall
        obtain ⟨n, hn, heq⟩ := hall first node rfl hnode
        cases hn
        exact heq.symm
    | none =>
      have hne : ¬ node.nodeID = s.fallback := by
        intro he
        rw [he, keepsId_fallback] at hkept
        cases hkept
      constructor
      · intro heq
        exact absurd heq hne
      · intro hall
        obtain ⟨n, hn, _⟩ := hall first node rfl hnode
        cases hn

/-- **The destination of a frame after a history** is the one with an empty
cache exactly if the frame is not looked up or its match has the id of the
first remembered match for its address. -/
theorem tap_history_iff (s : Server) (hacc : s.config.onlyAcc = 0)
    (hcache : s.ip2nodeidCache = Memo.empty) (frames : List Ptr) (frame : Ptr) :
    ((run tapStep s frames).getDestIDFromTapPacket frame).1 =
        ((run tapStep s frames).forget.getDestIDFromTapPacket frame).1 ↔
      (Unicast frame → SameMatch s frames frame) := by
  by_cases h : Unicast frame
  · have hrun := run_tapStep hacc frames
    have hforget : (run tapStep s frames).forget = s.forget := by
      rw [hrun]
      rfl
    have hafter : ((run tapStep s frames).getDestIDFromTapPacket frame).1 =
        ((run tapStep s frames).ip2nodeidCache (tapDestIP frame)).getD (tapLookup s frame) := by
      have hacc' : (run tapStep s frames).config.onlyAcc = 0 := by
        rw [hrun]
        exact hacc
      have hlookup : tapLookup (run tapStep s frames) frame = tapLookup s frame := by
        rw [hrun]
        rfl
      rw [getDestIDFromTapPacket_eq hacc' h, hlookup]
      rfl
    have hempty : (s.forget.getDestIDFromTapPacket frame).1 = tapLookup s frame := by
      rw [getDestIDFromTapPacket_eq (show s.forget.config.onlyAcc = 0 from hacc) h]
      rfl
    rw [hforget, hempty, hafter, cache_after_history hacc hcache, answer_eq_iff hacc]
    exact ⟨fun hsame _ => hsame, fun hsame => hsame h⟩
  · obtain ⟨destID, hd⟩ := getDestIDFromTapPacket_other h
    rw [hd, hd]
    exact ⟨fun _ hu => absurd hu h, fun _ => rfl⟩

/-! ## Two routers for one address -/

/-- The header of an IPv4 frame. -/
def frameTo (mac : Bytes) (ip : U32) : Ptr :=
  Ptr.ofBytes (mac ++ List.replicate 6 0 ++ [8, 0] ++ List.replicate 16 0 ++ bytes32 (htonl ip))

/-- A TAP server with two peers, known by their MAC addresses. -/
def twoRouters : Server :=
  run (Server.step ⟨wire, id⟩) (started ⟨wire, id⟩ 3 1 { tapMode := 1 } 9)
    [.meshNotify ⟨[
      { nodeId := 2, virtualIp := str "10.0.0.2", netMask := 32, macAddr := str "router" },
      { nodeId := 3, virtualIp := str "10.0.0.3", netMask := 32, macAddr := str "backup" }]⟩]

/-- A frame for 8.8.8.8 over the second goes to the first once a frame for that
address went there. -/
theorem second_router_ignored :
    ¬ ((run tapStep twoRouters [frameTo (str "router") 0x08080808]).getDestIDFromTapPacket
        (frameTo (str "backup") 0x08080808)).1 =
      ((run tapStep twoRouters [frameTo (str "router") 0x08080808]).forget.getDestIDFromTapPacket
        (frameTo (str "backup") 0x08080808)).1 := by
  decide +kernel

/-- Frames over one router stay with it. -/
theorem one_router_kept :
    ((run tapStep twoRouters [frameTo (str "router") 0x08080808]).getDestIDFromTapPacket
        (frameTo (str "router") 0x08080808)).1 =
      ((run tapStep twoRouters [frameTo (str "router") 0x08080808]).forget.getDestIDFromTapPacket
        (frameTo (str "router") 0x08080808)).1 := by
  refine (tap_history_iff twoRouters rfl rfl [frameTo (str "router") 0x08080808]
    (frameTo (str "router") 0x08080808)).mpr ?_
  intro _ first node hfirst hnode
  have hsame : first = frameTo (str "router") 0x08080808 :=
    List.mem_singleton.mp (List.mem_of_find?_eq_some hfirst)
  rw [hsame] at hnode
  exact ⟨node, hnode, rfl⟩

end Cpe.Proofs.TapCache
