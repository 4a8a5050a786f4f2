import Cpe.Lib.Interleave
import Cpe.Main.Runs

/-! # A table rebuild among dispatches

Both rebuilds of the node table clear it and push the new nodes one by one,
without a lock. A dispatch in between reads an initial part of the new table:
it finds the node the whole table would give, or none. -/
namespace Cpe.Proofs.Rebuild
open Cpe.Lib.ByteOrder Cpe.Lib.CString Cpe.Lib.MemoTable Cpe.Lib.Run Cpe.Lib.Interleave
open Cpe.Lib.FirstMatch Cpe.Pro Cpe.Main

inductive TableStep
  | clear
  | pushBack (node : CpeNode)

def tableStep (s : Server) : TableStep → Server
  | .clear => s.clearCpes
  | .pushBack node => s.pushCpe node

/-- The steps of a rebuild to a table. -/
def rebuild (table : List CpeNode) : List TableStep := .clear :: table.map .pushBack

/-- `init_mesh_cpes` runs a rebuild, -/
theorem initMeshCpes_run (pf : Platform) (s : Server) :
    s.initMeshCpes pf = run tableStep s (rebuild (configTable pf s.config)) := by
  rw [rebuild, configTable, run_cons, List.map_map, run, List.foldl_map]
  rfl

/-- and so does `handle_online_cpes_notify`. -/
theorem handleOnlineCpesNotify_run (pf : Platform) (s : Server) (cpesInfo : Bytes) :
    s.handleOnlineCpesNotify pf cpesInfo =
      run tableStep s (rebuild (onlineTable (pf.proto.userListOnEdge cpesInfo).2)) := by
  rw [rebuild, onlineTable, run_cons, List.map_map, run, List.foldl_map, List.foldl_flatMap]
  rfl

/-- A step of either thread. -/
def rebuildStep (s : Server) : TableStep ⊕ Ptr → Server
  | .inl step => tableStep s step
  | .inr packet => s.tunStep packet

/-- Where a dispatch with an empty cache sends a packet. -/
def uncachedDest (s : Server) (packet : Ptr) : U32 := (s.forget.getDestIDFromTunPacket packet).1

/-- The lookup of an address in a given table. -/
def lookupIn (s : Server) (table : List CpeNode) (ip : U32) : U32 :=
  { s with cpes := table }.uncached ip defaultMac

theorem lookupIn_eq {s : Server} (h : s.TunMode) (table : List CpeNode) (ip : U32) :
    lookupIn s table ip = ((owner table ip).map CpeNode.nodeID).getD s.fallback := by
  have hmode : { s with cpes := table }.TunMode := h
  exact tunLookup_eq hmode ip

theorem uncachedDest_eq {s t : Server} (h : s.TunMode) (hframe : t.frame = s.frame)
    (packet : Ptr) :
    uncachedDest t packet =
      ((owner t.cpes (tunDestIP packet)).map CpeNode.nodeID).getD s.fallback := by
  have hmode : t.forget.TunMode := tunMode_of_frame hframe.symm h
  have hlookup := tunLookup_eq hmode (tunDestIP packet)
  rw [uncachedDest, getDestIDFromTunPacket_eq hmode, hlookup, ← fallback_of_frame hframe]
  rfl

/-! ## The table at a dispatch -/

def tableAfter (table : List CpeNode) : TableStep → List CpeNode
  | .clear => []
  | .pushBack node => table ++ [node]

theorem rebuildStep_frame (s : Server) (z : TableStep ⊕ Ptr) :
    (rebuildStep s z).frame = s.frame := by
  cases z with
  | inl step => cases step <;> rfl
  | inr packet => exact cacheDest_frame s _ _

theorem run_frame (s : Server) (zs : List (TableStep ⊕ Ptr)) :
    (run rebuildStep s zs).frame = s.frame := by
  induction zs generalizing s with
  | nil => rfl
  | cons z zs ih => rw [run_cons, ih, rebuildStep_frame]

/-- The table depends on the steps of the rebuild only. -/
theorem run_cpes (s : Server) (zs : List (TableStep ⊕ Ptr)) :
    (run rebuildStep s zs).cpes = run tableAfter s.cpes (lefts zs) := by
  refine run_proj Server.cpes ?_ ?_ s zs
  · intro s step
    cases step <;> rfl
  · intro s packet
    obtain ⟨m, hm⟩ := tunStep_cache s packet
    rw [rebuildStep, hm]

theorem run_pushBack (table nodes : List CpeNode) :
    run tableAfter table (nodes.map .pushBack) = table ++ nodes := by
  induction nodes generalizing table with
  | nil => simp
  | cons node nodes ih =>
    rw [List.map_cons, run_cons, ih]
    simp [tableAfter]

/-- A part of a rebuild has done nothing, or has built an initial part of the
new table. -/
theorem rebuild_part {table : List CpeNode} {done : List TableStep} (h : done <+: rebuild table)
    (old : List CpeNode) :
    done = [] ∨ ∃ built, built <+: table ∧ done = rebuild built ∧ run tableAfter old done = built := by
  cases done with
  | nil => exact .inl rfl
  | cons step done =>
    obtain ⟨rest, hrest⟩ := h
    obtain ⟨rfl, htail⟩ := List.cons.inj hrest
    obtain ⟨built, last, rfl, rfl, rfl⟩ := List.map_eq_append_iff.mp htail.symm
    refine .inr ⟨built, List.prefix_append built last, rfl, ?_⟩
    rw [run_cons, run_pushBack]
    rfl

/-- **A packet during a rebuild** is sent by the old table, by the new one, or,
while the new one is incomplete, to the fallback. -/
theorem dispatch_during_rebuild (s : Server) (htap : s.config.tapMode = 0)
    (hacc : s.config.onlyAcc = 0) (table : List CpeNode) (zs pre post : List (TableStep ⊕ Ptr))
    (packet : Ptr) (hzs : Interleaves (rebuild table) zs) (hz : zs = pre ++ .inr packet :: post) :
    uncachedDest (run rebuildStep s pre) packet = lookupIn s s.cpes (tunDestIP packet) ∨
      uncachedDest (run rebuildStep s pre) packet = lookupIn s table (tunDestIP packet) ∨
      lefts pre ≠ [] ∧ lefts pre ≠ rebuild table ∧
        uncachedDest (run rebuildStep s pre) packet =
          if s.config.gateWay = 0 then s.gatewayId else 0 := by
  have hmode : s.TunMode := ⟨htap, hacc⟩
  have hdest := uncachedDest_eq hmode (run_frame s pre) packet
  rw [run_cpes] at hdest
  rw [hdest, lookupIn_eq hmode, lookupIn_eq hmode]
  rcases rebuild_part (hzs.lefts_initial hz) s.cpes with hnone | ⟨built, hbuilt, hdone, htable⟩
  · rw [hnone]
    exact .inl rfl
  · rw [htable]
    cases ho : owner built (tunDestIP packet) with
    | some node =>
      have hfirst := (owner_eq_some_iff.mp ho).of_initial hbuilt
      rw [owner_eq_some_iff.mpr hfirst]
      exact .inr (.inl rfl)
    | none =>
      by_cases hcomplete : built = table
      · rw [← hcomplete, ho]
        exact .inr (.inl rfl)
      · refine .inr (.inr ⟨by rw [hdone]; exact List.cons_ne_nil _ _, ?_, rfl⟩)
        intro he
        have hmap := (List.cons.inj (hdone.symm.trans he)).2
        have hinj : Function.Injective TableStep.pushBack := fun _ _ h => TableStep.pushBack.inj h
        exact hcomplete (List.map_injective_iff.mpr hinj hmap)

/-! ## A packet behind the clear -/

/-- A server with one peer, -/
def onePeer : Server :=
  run (Server.step ⟨wire, id⟩) (started ⟨wire, id⟩ 3 1 {} 9)
    [.meshNotify ⟨[{ nodeId := 2, virtualIp := str "10.0.0.2", netMask := 32 }]⟩]

/-- and a table that adds a second one. -/
def twoPeers : List CpeNode :=
  meshTable ⟨wire, id⟩ ⟨[
    { nodeId := 2, virtualIp := str "10.0.0.2", netMask := 32 },
    { nodeId := 3, virtualIp := str "10.0.0.3", netMask := 32 }]⟩

/-- A packet to the first peer between `clear` and `push_back`. -/
def emptyMoment : List (TableStep ⊕ Ptr) :=
  [.inl .clear, .inr (packetTo 0x0a000002)] ++ twoPeers.map fun node => .inl (.pushBack node)

/-- It goes to the gateway, where neither table sends it. -/
theorem dispatch_behind_clear :
    Interleaves (rebuild twoPeers) emptyMoment ∧
      ¬ (uncachedDest (run rebuildStep onePeer (emptyMoment.take 1)) (packetTo 0x0a000002) =
          lookupIn onePeer onePeer.cpes 0x0a000002 ∨
        uncachedDest (run rebuildStep onePeer (emptyMoment.take 1)) (packetTo 0x0a000002) =
          lookupIn onePeer twoPeers 0x0a000002) := by
  refine ⟨rfl, ?_⟩
  decide +kernel

theorem dispatch_behind_clear_falls_back :
    uncachedDest (run rebuildStep onePeer (emptyMoment.take 1)) (packetTo 0x0a000002) =
        lookupIn onePeer onePeer.cpes (tunDestIP (packetTo 0x0a000002)) ∨
      uncachedDest (run rebuildStep onePeer (emptyMoment.take 1)) (packetTo 0x0a000002) =
        lookupIn onePeer twoPeers (tunDestIP (packetTo 0x0a000002)) ∨
      lefts (emptyMoment.take 1) ≠ [] ∧ lefts (emptyMoment.take 1) ≠ rebuild twoPeers ∧
        uncachedDest (run rebuildStep onePeer (emptyMoment.take 1)) (packetTo 0x0a000002) = 9 :=
  dispatch_during_rebuild onePeer rfl rfl twoPeers emptyMoment (emptyMoment.take 1)
    (emptyMoment.drop 2) (packetTo 0x0a000002) rfl rfl

end Cpe.Proofs.Rebuild
