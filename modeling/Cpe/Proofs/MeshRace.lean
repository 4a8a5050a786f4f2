import Cpe.Lib.Interleave
import Cpe.Main.Runs

/-! # A mesh notify among dispatches

The network thread runs the statement groups of a mesh notify, and the event
loop dispatches packets between them. The cache is emptied with the first
group and the table replaced with the third: what is dispatched in between
fills the emptied cache from the old table. -/
namespace Cpe.Proofs.MeshRace
open Cpe.Lib.ByteOrder Cpe.Lib.CString Cpe.Lib.MemoTable Cpe.Lib.Run Cpe.Lib.Interleave
open Cpe.Pro Cpe.Main

/-- A step of either thread. -/
def raceStep (pf : Platform) (list : NodeInfoList) (s : Server) : MeshStep ⊕ Ptr → Server
  | .inl step => s.meshStep pf list step
  | .inr packet => s.tunStep packet

/-- The notify has emptied the cache and not yet replaced the table. -/
def halfDone (done : List MeshStep) : Bool := .clearAndCopy ∈ done ∧ .initCpes ∉ done

/-- The packets dispatched while the notify is half done. -/
def exposed (zs : List (MeshStep ⊕ Ptr)) : List Ptr := rightsWhen halfDone [] zs

/-- An address whose first node in the old table has an id that is remembered
has a first entry with that id in the new list. -/
def Unmoved (s : Server) (list : NodeInfoList) (ip : U32) : Prop :=
  ∀ node, owner s.cpes ip = some node → keepsId s.gatewayId node.nodeID = true →
    ∃ info, firstEntry list ip = some info ∧ info.nodeId = node.nodeID

/-! ## The two phases after the first group -/

/-- The cache was emptied and has since learned `packets` from the old table. -/
structure Emptied (list : NodeInfoList) (old : Server) (packets : List Ptr) (s : Server) :
    Prop where
  frame : s.frame = old.frame
  infos : s.config.nodeInfoList = meshInfos list
  table : s.cpes = old.cpes
  cache : s.ip2nodeidCache = Memo.empty.learnAll (keepsId old.gatewayId)
    ((packets.map tunDestIP).map fun ip => (ip, old.tunLookup ip))

/-- The table was replaced; the cache is right exactly if the addresses of
`packets` did not move. -/
structure Replaced (pf : Platform) (list : NodeInfoList) (old : Server) (packets : List Ptr)
    (s : Server) : Prop where
  frame : s.frame = old.frame
  table : s.cpes = meshTable pf list
  cache : CacheAgrees s ↔ ∀ packet ∈ packets, Unmoved old list (tunDestIP packet)

variable {pf : Platform} {list : NodeInfoList} {old s : Server} {packets : List Ptr}

theorem tunLookup_of_table (h : old.TunMode) (hframe : s.frame = old.frame)
    (htable : s.cpes = old.cpes) (ip : U32) : s.tunLookup ip = old.tunLookup ip := by
  rw [tunLookup_eq (tunMode_of_frame hframe.symm h), tunLookup_eq h, htable,
    fallback_of_frame hframe]

theorem cacheAgrees_congr (h : old.TunMode) (hframe : s.frame = old.frame)
    (htable : s.cpes = old.cpes) (hcache : s.ip2nodeidCache = old.ip2nodeidCache) :
    CacheAgrees s ↔ CacheAgrees old := by
  have hlookup : s.tunLookup = old.tunLookup :=
    funext fun ip => tunLookup_of_table h hframe htable ip
  show Coherent s.tunLookup s.ip2nodeidCache ↔ Coherent old.tunLookup old.ip2nodeidCache
  rw [hlookup, hcache]

theorem emptied_clear (pf : Platform) (hframe : s.frame = old.frame) (htable : s.cpes = old.cpes) :
    Emptied list old [] (s.meshStep pf list .clearAndCopy) := by
  rw [Server.meshStep, foldl_copyNodeInfo]
  exact ⟨hframe, rfl, htable, rfl⟩

theorem Emptied.dispatch (h : old.TunMode) (he : Emptied list old packets s)
    (packets' : List Ptr) :
    Emptied list old (packets ++ packets') (run Server.tunStep s packets') := by
  have hmode := tunMode_of_frame he.frame.symm h
  have hlookup : s.tunLookup = old.tunLookup :=
    funext fun ip => tunLookup_of_table h he.frame he.table ip
  have hcache : (run Server.tunStep s packets').ip2nodeidCache =
      s.ip2nodeidCache.learnAll (keepsId old.gatewayId)
        ((packets'.map tunDestIP).map fun ip => (ip, old.tunLookup ip)) := by
    rw [run_tunStep hmode, gatewayId_of_frame he.frame, hlookup]
  rw [he.cache, ← learnAll_append, ← List.map_append, ← List.map_append] at hcache
  refine ⟨?_, ?_, ?_, hcache⟩
  all_goals rw [run_tunStep hmode]
  · exact he.frame
  · exact he.infos
  · exact he.table

theorem Emptied.delRoutes (pf : Platform) (he : Emptied list old packets s) :
    Emptied list old packets (s.meshStep pf list .delRoutes) := by
  rw [Server.meshStep, delRouteForNodes_eq]
  exact ⟨he.frame, he.infos, he.table, he.cache⟩

/-- What an address is answered under the new table. -/
theorem tunLookup_meshTable (h : s.TunMode) (htable : s.cpes = meshTable pf list)
    {ip nodeId : U32} (hkept : keepsId s.gatewayId nodeId = true) :
    s.tunLookup ip = nodeId ↔ ∃ info, firstEntry list ip = some info ∧ info.nodeId = nodeId := by
  rw [tunLookup_eq_iff h hkept, htable, owner_meshTable]
  cases firstEntry list ip with
  | none => simp
  | some info => simp [entryNode, meshNode, nodeInfoOf]

/-- What was learned of an address stays right exactly if it did not move. -/
theorem unmoved_iff (h : old.TunMode) (hframe : s.frame = old.frame)
    (htable : s.cpes = meshTable pf list) (ip : U32) :
    (keepsId old.gatewayId (old.tunLookup ip) = true → s.tunLookup ip = old.tunLookup ip) ↔
      Unmoved old list ip := by
  have hmode := tunMode_of_frame hframe.symm h
  have hgateway := gatewayId_of_frame hframe
  unfold Unmoved
  rw [tunLookup_eq h]
  cases owner old.cpes ip with
  | none => simp [keepsId_fallback]
  | some node =>
    have hiff : keepsId old.gatewayId node.nodeID = true →
        (s.tunLookup ip = node.nodeID ↔
          ∃ info, firstEntry list ip = some info ∧ info.nodeId = node.nodeID) := by
      intro hkept
      rw [← hgateway] at hkept
      exact tunLookup_meshTable hmode htable hkept
    constructor
    · intro hsame n hn hkept
      cases hn
      exact (hiff hkept).mp (hsame hkept)
    · intro hmoved hkept
      exact (hiff hkept).mpr (hmoved node rfl hkept)

/-- Replacing the table makes what was learned right or wrong. -/
theorem Emptied.initCpes (h : old.TunMode) (he : Emptied list old packets s) :
    Replaced pf list old packets (s.meshStep pf list .initCpes) := by
  have hstep : s.meshStep pf list .initCpes = { s with cpes := meshTable pf list } := by
    rw [Server.meshStep, initMeshCpes_eq, he.infos]
    rfl
  have hframe : (s.meshStep pf list .initCpes).frame = old.frame := by
    rw [hstep]
    exact he.frame
  have htable : (s.meshStep pf list .initCpes).cpes = meshTable pf list := by rw [hstep]
  have hcache : (s.meshStep pf list .initCpes).ip2nodeidCache = s.ip2nodeidCache := by rw [hstep]
  refine ⟨hframe, htable, ?_⟩
  have hagrees : CacheAgrees (s.meshStep pf list .initCpes) ↔
      Coherent (s.meshStep pf list .initCpes).tunLookup
        (s.meshStep pf list .initCpes).ip2nodeidCache := Iff.rfl
  rw [hagrees, hcache, he.cache, coherent_learnAll_empty_iff]
  simp only [List.forall_mem_map, unmoved_iff h hframe htable]

theorem Replaced.dispatch (h : old.TunMode) (hr : Replaced pf list old packets s)
    (packets' : List Ptr) : Replaced pf list old packets (run Server.tunStep s packets') := by
  have hmode := tunMode_of_frame hr.frame.symm h
  refine ⟨?_, ?_, ?_⟩
  · rw [run_tunStep hmode]
    exact hr.frame
  · rw [run_tunStep hmode]
    exact hr.table
  · rw [← hr.cache, run_tunStep hmode]
    exact coherent_learnAll_iff

theorem Replaced.addRoutes (h : old.TunMode) (hr : Replaced pf list old packets s) :
    Replaced pf list old packets (s.meshStep pf list .addRoutes) := by
  rw [Server.meshStep, addRouteForNodes_eq]
  refine ⟨hr.frame, hr.table, ?_⟩
  rw [← hr.cache]
  exact cacheAgrees_congr (tunMode_of_frame hr.frame.symm h) rfl rfl rfl

/-! ## Every interleaving -/

theorem run_stage (packets : List Ptr) (step : MeshStep) (zs : List (MeshStep ⊕ Ptr)) :
    run (raceStep pf list) s (packets.map .inr ++ .inl step :: zs) =
      run (raceStep pf list) ((run Server.tunStep s packets).meshStep pf list step) zs := by
  rw [run_append, run_rights]
  rfl

/-- **A mesh notify among dispatches** ends with a right cache exactly if no
packet dispatched while it is half done has a moved address. -/
theorem mesh_race_iff (pf : Platform) (s : Server) (htap : s.config.tapMode = 0)
    (hacc : s.config.onlyAcc = 0) (list : NodeInfoList) (zs : List (MeshStep ⊕ Ptr))
    (hzs : Interleaves meshSteps zs) :
    CacheAgrees (run (raceStep pf list) s zs) ↔
      ∀ packet ∈ exposed zs, Unmoved s list (tunDestIP packet) := by
  have hmode : s.TunMode := ⟨htap, hacc⟩
  obtain ⟨ys₀, zs₁, rfl, h₁⟩ := hzs.split
  obtain ⟨ys₁, zs₂, rfl, h₂⟩ := h₁.split
  obtain ⟨ys₂, zs₃, rfl, h₃⟩ := h₂.split
  obtain ⟨ys₃, zs₄, rfl, h₄⟩ := h₃.split
  obtain ⟨ys₄, rfl⟩ := h₄.rest
  have hexposed : exposed (ys₀.map .inr ++ .inl .clearAndCopy :: (ys₁.map .inr ++
      .inl .delRoutes :: (ys₂.map .inr ++ .inl .initCpes :: (ys₃.map .inr ++
      .inl .addRoutes :: ys₄.map .inr)))) = ys₁ ++ ys₂ := by
    simp [exposed, halfDone]
  rw [hexposed]
  simp only [run_stage, run_rights]
  have hemptied :
      Emptied list s [] ((run Server.tunStep s ys₀).meshStep pf list .clearAndCopy) := by
    rw [run_tunStep hmode]
    exact emptied_clear pf rfl rfl
  have hfilled := ((hemptied.dispatch hmode ys₁).delRoutes pf).dispatch hmode ys₂
  have hreplaced : Replaced pf list s ([] ++ ys₁ ++ ys₂) _ := hfilled.initCpes hmode
  exact (((hreplaced.dispatch hmode ys₃).addRoutes hmode).dispatch hmode ys₄).cache

/-! ## A packet in between -/

/-- A server that has 10.0.0.2 at node 2, and a list that moves it to node 3. -/
def beforeMove : Server :=
  run (Server.step ⟨wire, id⟩) (started ⟨wire, id⟩ 3 1 {} 9)
    [.meshNotify ⟨[{ nodeId := 2, virtualIp := str "10.0.0.2", netMask := 32 }]⟩]

def movingList : NodeInfoList :=
  ⟨[{ nodeId := 3, virtualIp := str "10.0.0.2", netMask := 32 }]⟩

/-- A packet between the first two groups. -/
def badRace : List (MeshStep ⊕ Ptr) :=
  [.inl .clearAndCopy, .inr (packetTo 0x0a000002), .inl .delRoutes, .inl .initCpes,
    .inl .addRoutes]

/-- Its entry for node 2 is there when the notify has finished. -/
theorem race_leaves_stale_entry :
    Interleaves meshSteps badRace ∧
      ¬ CacheAgrees (run (raceStep ⟨wire, id⟩ movingList) beforeMove badRace) := by
  refine ⟨rfl, ?_⟩
  intro h
  have hentry := h 0x0a000002 2 (by decide)
  revert hentry
  decide +kernel

/-- Packets before the first and after the third group. -/
def goodRace : List (MeshStep ⊕ Ptr) :=
  [.inr (packetTo 0x0a000002), .inl .clearAndCopy, .inl .delRoutes, .inl .initCpes,
    .inr (packetTo 0x0a000002), .inl .addRoutes]

/-- They leave the cache right. -/
theorem race_outside_window :
    CacheAgrees (run (raceStep ⟨wire, id⟩ movingList) beforeMove goodRace) := by
  refine (mesh_race_iff ⟨wire, id⟩ beforeMove rfl rfl movingList goodRace rfl).mpr ?_
  have hnone : exposed goodRace = [] := rfl
  rw [hnone]
  intro packet hp
  cases hp

end Cpe.Proofs.MeshRace
