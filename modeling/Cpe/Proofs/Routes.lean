import Cpe.Main.Runs

/-! # Installed routes over runs

A mesh notify deletes the routes of the table it finds and adds those of the
new list. An online notify in between replaces the table without touching the
routes: what the earlier list installed is then no longer deleted, and what is
installed is no longer dispatched to a peer. -/
namespace Cpe.Proofs.Routes
open Cpe.Lib.ByteOrder Cpe.Lib.CString Cpe.Lib.Number Cpe.Lib.InetAddr
open Cpe.Lib.MemoTable Cpe.Lib.BitPrefix Cpe.Lib.Run Cpe.Pro Cpe.Main

/-! ## Routes of an earlier list -/

/-- A mesh notify that runs to completion leaves exactly the listed routes. -/
def Reconciled (pf : Platform) (s : Server) : Event → Prop
  | .packet _ => True
  | .session data len => ∀ list, decodeSession pf data len = .mesh true list →
    (s.handleSessionDataRecv pf data len).routes = listedRoutes s.localId list

/-- What the datagrams of a run say: the routes of the last mesh list, and
whether a list of online CPEs has replaced its table. -/
structure Ledger where
  listed : Finset Route
  replaced : Bool

def Ledger.note (localId : U32) (l : Ledger) : SessionMsg → Ledger
  | .mesh true list => ⟨listedRoutes localId list, false⟩
  | .online _ _ => { l with replaced := true }
  | _ => l

def Ledger.step (pf : Platform) (localId : U32) (l : Ledger) : Event → Ledger
  | .packet _ => l
  | .session data len => l.note localId (decodeSession pf data len)

/-- A mesh list that comes after a replacement lists the routes of the earlier
list again. -/
def Ledger.Relisted (localId : U32) (l : Ledger) : SessionMsg → Prop
  | .mesh true list => l.replaced = true → l.listed ⊆ listedRoutes localId list
  | _ => True

def RelistsEarlier (pf : Platform) (localId : U32) (l : Ledger) : Event → Prop
  | .packet _ => True
  | .session data len => l.Relisted localId (decodeSession pf data len)

/-- The routes are those of the ledger's list, and the table would delete all
of them, or none after a replacement. -/
structure Tracks (localId : U32) (s : Server) (l : Ledger) : Prop where
  same : s.localId = localId
  routes : s.routes = l.listed
  table : routesOf localId s.cpes = if l.replaced then ∅ else l.listed

/-- Deleting and adding leaves the added routes exactly if what is not deleted
is added again. -/
theorem sdiff_union_eq_right_iff (R A B : Finset Route) : R \ A ∪ B = B ↔ R \ A ⊆ B :=
  Finset.union_eq_right

theorem applyMesh_routes (pf : Platform) (s : Server) (list : NodeInfoList) :
    (s.applyMesh pf list).routes =
      s.routes \ routesOf s.localId s.cpes ∪ listedRoutes s.localId list := by
  rw [← routesOf_meshTable pf]
  rfl

theorem Tracks.reconciled_iff {localId : U32} {s : Server} {l : Ledger} (h : Tracks localId s l)
    (pf : Platform) (e : Event) : Reconciled pf s e ↔ RelistsEarlier pf localId l e := by
  cases e with
  | packet packet => exact Iff.rfl
  | session data len =>
    show (∀ list, _ → _) ↔ l.Relisted localId (decodeSession pf data len)
    rw [handleSessionDataRecv_eq]
    cases decodeSession pf data len with
    | mesh parsed list =>
      cases parsed with
      | false => simp [Ledger.Relisted]
      | true =>
        have hroutes : (s.receive pf (.mesh true list)).routes = listedRoutes s.localId list ↔
            l.Relisted localId (.mesh true list) := by
          rw [Server.receive, applyMesh_routes, sdiff_union_eq_right_iff, h.same, h.table, h.routes]
          cases hr : l.replaced with
          | true => simp [Ledger.Relisted, hr]
          | false => simp [Ledger.Relisted, hr]
        rw [← hroutes]
        constructor
        · intro hall
          exact hall list rfl
        · intro heq list' he
          cases he
          exact heq
    | _ => simp [Ledger.Relisted]

theorem Tracks.receive {localId : U32} {s : Server} {l : Ledger} (h : Tracks localId s l)
    (pf : Platform) (msg : SessionMsg)
    (hc : ∀ list, msg = .mesh true list →
      (s.receive pf msg).routes = listedRoutes s.localId list) :
    Tracks localId (s.receive pf msg) (l.note localId msg) := by
  have hsame : (s.receive pf msg).localId = localId := by
    rw [localId_of_frame (receive_frame pf s msg), h.same]
  cases msg with
  | mesh parsed list =>
    cases parsed with
    | false => exact h
    | true =>
      refine ⟨hsame, ?_, ?_⟩
      · rw [hc list rfl, h.same]
        rfl
      · exact routesOf_meshTable pf localId list
  | online parsed list => exact ⟨hsame, h.routes, routesOf_onlineTable localId list⟩
  | _ => exact h

theorem Tracks.step {localId : U32} {s : Server} {l : Ledger} (h : Tracks localId s l)
    (pf : Platform) (e : Event) (hc : Reconciled pf s e) :
    Tracks localId (s.step pf e) (l.step pf localId e) := by
  cases e with
  | packet packet =>
    obtain ⟨m, hm⟩ := tunStep_cache s packet
    rw [Server.step, hm]
    exact ⟨h.same, h.routes, h.table⟩
  | session data len =>
    rw [step_session]
    refine h.receive pf _ ?_
    intro list hmsg
    rw [← handleSessionDataRecv_eq]
    exact hc list hmsg

/-- **No route of an old mesh survives**, in every run, exactly if after each
replacement of the table by a keepalive response the next mesh list repeats
the routes of the one before. -/
theorem routes_reconciled_iff (pf : Platform) (fd id gatewayId : U32) (config : MzConfig)
    (es : List Event) :
    EachStep (Server.step pf) (Reconciled pf) (started pf fd id config gatewayId) es ↔
    EachStep (Ledger.step pf (atoi (intText id))) (RelistsEarlier pf (atoi (intText id)))
      ⟨routesOf (atoi (intText id)) (configTable pf config), false⟩ es := by
  have hstart : Tracks (atoi (intText id)) (started pf fd id config gatewayId)
      ⟨routesOf (atoi (intText id)) (configTable pf config), false⟩ := by
    rw [started_eq]
    exact ⟨rfl, rfl, rfl⟩
  exact eachStep_iff_eachStep hstart (fun s l e h => h.reconciled_iff pf e)
    fun s l e h hc => h.step pf e hc

/-- A mesh list, an online list and another mesh list. -/
def staleRouteRun : List Event :=
  [.meshNotify ⟨[{ nodeId := 2, virtualIp := str "10.1.0.1", subnetIpStart := str "10.1.0.0/16", netMask := 16 }]⟩,
    .keepAlive ⟨[⟨[⟨str "2", str "10.1.0.1"⟩]⟩]⟩,
    .meshNotify ⟨[{ nodeId := 3, virtualIp := str "10.2.0.1", subnetIpStart := str "10.2.0.0/16", netMask := 16 }]⟩]

/-- The route of the first list is still there after the second. -/
theorem stale_route_survives :
    ¬ EachStep (Server.step ⟨wire, id⟩) (Reconciled ⟨wire, id⟩) (started ⟨wire, id⟩ 3 1 {} 9)
      staleRouteRun := by
  intro h
  have hlast := h (staleRouteRun.take 2) _ [] rfl _ rfl
  have hcard := congrArg Finset.card hlast
  revert hcard
  decide +kernel

/-! ## Routes and dispatch -/

/-- Every address of an installed route is dispatched to a node other than the
local one that covers it. -/
def RoutesServed (s : Server) : Prop :=
  ∀ d, (∃ r ∈ s.routes, r.Covers d) →
    ∃ node ∈ s.cpes, node.nodeID ≠ s.localId ∧ node.Covers d ∧ s.uncached d defaultMac = node.nodeID

/-- In the table, a node other than the local one is the first to cover an
address. -/
def PeerFirst (localId : U32) (table : List CpeNode) (d : U32) : Prop :=
  ∃ node, owner table d = some node ∧ node.nodeID ≠ localId

/-- The lists that keep every route served. A mesh list must have a node other
than the local one first for each address of its own routes, and of the
installed routes that the table before does not name; an online list for each
address of an installed route. -/
def ServesRoutes (s : Server) : SessionMsg → Prop
  | .mesh true list => ∀ d,
    (∃ info ∈ list.cpeList, s.localId ≠ info.nodeId ∧
        ∃ p ∈ prefixesOf info.subnetIpStart, p.Contains d) ∨
      (∃ r ∈ s.routes, r ∉ routesOf s.localId s.cpes ∧ r.Covers d) →
    ∃ info, firstEntry list d = some info ∧ info.nodeId ≠ s.localId
  | .online _ list => ∀ d, (∃ r ∈ s.routes, r.Covers d) →
    ∃ info, firstOnline list d = some info ∧ atoi info.cpeId ≠ s.localId
  | _ => True

/-- The configured list puts a node other than the local one first for each
address of its routes. -/
def ServesConfigured (pf : Platform) (localId : U32) (config : MzConfig) : Prop :=
  ∀ d, (∃ r ∈ routesOf localId (configTable pf config), r.Covers d) →
    PeerFirst localId (configTable pf config) d

def KeepsServed (pf : Platform) (s : Server) : Event → Prop
  | .packet _ => True
  | .session data len => ServesRoutes s (decodeSession pf data len)

/-- Dispatch answers with the first node that covers the address, so it is the
first that counts. -/
theorem served_iff {s : Server} (h : s.TunMode) (d : U32) :
    (∃ node ∈ s.cpes, node.nodeID ≠ s.localId ∧ node.Covers d ∧
      s.uncached d defaultMac = node.nodeID) ↔ PeerFirst s.localId s.cpes d := by
  have hlookup : s.uncached d defaultMac = _ := tunLookup_eq h d
  rw [hlookup]
  constructor
  · rintro ⟨node, hmem, hid, hcovers, heq⟩
    cases ho : owner s.cpes d with
    | none =>
      have hno : ¬ node.Covers d := owner_eq_none_iff.mp ho node hmem
      exact absurd hcovers hno
    | some first =>
      rw [ho] at heq
      refine ⟨first, ho, ?_⟩
      intro he
      exact hid (heq ▸ he)
  · rintro ⟨node, ho, hid⟩
    have hfirst := owner_eq_some_iff.mp ho
    have hcovers : node.Covers d := hfirst.mem_owns
    exact ⟨node, hfirst.mem, hid, hcovers, by rw [ho]; rfl⟩

theorem routesServed_iff {s : Server} (h : s.TunMode) :
    RoutesServed s ↔ ∀ d, (∃ r ∈ s.routes, r.Covers d) → PeerFirst s.localId s.cpes d := by
  unfold RoutesServed
  simp only [served_iff h]

/-- In a table whose first node for an address is made of an entry, that entry
decides. -/
theorem peerFirst_iff {α : Type} {table : List CpeNode} {d : U32} {first : Option α}
    {node : α → CpeNode} (h : owner table d = first.map node) (localId : U32) :
    PeerFirst localId table d ↔ ∃ x, first = some x ∧ (node x).nodeID ≠ localId := by
  unfold PeerFirst
  rw [h]
  cases first with
  | none => simp
  | some x => simp

theorem peerFirst_meshTable (pf : Platform) (localId : U32) (list : NodeInfoList) (d : U32) :
    PeerFirst localId (meshTable pf list) d ↔
      ∃ info, firstEntry list d = some info ∧ info.nodeId ≠ localId :=
  peerFirst_iff (owner_meshTable pf list d) localId

theorem peerFirst_onlineTable (localId : U32) (list : UserListOnEdge) (d : U32) :
    PeerFirst localId (onlineTable list) d ↔
      ∃ info, firstOnline list d = some info ∧ atoi info.cpeId ≠ localId :=
  peerFirst_iff (owner_onlineTable list d) localId

/-- The addresses routed after a mesh list. -/
theorem covered_applyMesh (pf : Platform) (s : Server) (list : NodeInfoList) (d : U32) :
    (∃ r ∈ (s.applyMesh pf list).routes, r.Covers d) ↔
      (∃ info ∈ list.cpeList, s.localId ≠ info.nodeId ∧
          ∃ p ∈ prefixesOf info.subnetIpStart, p.Contains d) ∨
        (∃ r ∈ s.routes, r ∉ routesOf s.localId s.cpes ∧ r.Covers d) := by
  rw [applyMesh_routes]
  constructor
  · rintro ⟨r, hr, hcovers⟩
    rcases Finset.mem_union.mp hr with hold | hnew
    · obtain ⟨hin, hnot⟩ := Finset.mem_sdiff.mp hold
      exact .inr ⟨r, hin, hnot, hcovers⟩
    · obtain ⟨info, hinfo, hid, p, hp, rfl⟩ := mem_listedRoutes.mp hnew
      exact .inl ⟨info, hinfo, hid, p, hp, (toRoute_covers p d).mp hcovers⟩
  · rintro (⟨info, hinfo, hid, p, hp, hcontains⟩ | ⟨r, hin, hnot, hcovers⟩)
    · have hnew := mem_listedRoutes.mpr ⟨info, hinfo, hid, p, hp, rfl⟩
      exact ⟨toRoute p, Finset.mem_union_right _ hnew, (toRoute_covers p d).mpr hcontains⟩
    · exact ⟨r, Finset.mem_union_left _ (Finset.mem_sdiff.mpr ⟨hin, hnot⟩), hcovers⟩

theorem routesServed_receive {s : Server} (h : s.TunMode) (hs : RoutesServed s) (pf : Platform)
    (msg : SessionMsg) : RoutesServed (s.receive pf msg) ↔ ServesRoutes s msg := by
  have hmode : (s.receive pf msg).TunMode := tunMode_of_frame (receive_frame pf s msg).symm h
  have hlocal : (s.receive pf msg).localId = s.localId :=
    localId_of_frame (receive_frame pf s msg)
  cases msg with
  | mesh parsed list =>
    cases parsed with
    | false => exact ⟨fun _ => trivial, fun _ => hs⟩
    | true =>
      rw [routesServed_iff hmode, hlocal]
      have htable : (s.receive pf (.mesh true list)).cpes = meshTable pf list := rfl
      simp only [htable, peerFirst_meshTable]
      have hcovered := covered_applyMesh pf s list
      simp only [Server.receive, hcovered]
      exact Iff.rfl
  | online parsed list =>
    rw [routesServed_iff hmode, hlocal]
    have htable : (s.receive pf (.online parsed list)).cpes = onlineTable list := rfl
    simp only [htable, peerFirst_onlineTable]
    exact Iff.rfl
  | _ => exact ⟨fun _ => trivial, fun _ => hs⟩

theorem routesServed_step (pf : Platform) (s : Server) (e : Event) (h : s.TunMode)
    (hs : RoutesServed s) : RoutesServed (s.step pf e) ↔ KeepsServed pf s e := by
  cases e with
  | packet packet =>
    obtain ⟨m, hm⟩ := tunStep_cache s packet
    rw [Server.step, hm]
    have hsame : RoutesServed { s with ip2nodeidCache := m } := hs
    exact ⟨fun _ => trivial, fun _ => hsame⟩
  | session data len =>
    rw [step_session]
    exact routesServed_receive h hs pf _

/-- **Routes and dispatch agree** in every state of a run exactly if every list
of the run, and the configured one, puts a node other than the local one first
for each address that is then routed. -/
theorem routes_served_iff (pf : Platform) (fd id gatewayId : U32) (config : MzConfig)
    (htap : config.tapMode = 0) (hacc : config.onlyAcc = 0) (es : List Event) :
    Throughout (Server.step pf) RoutesServed (started pf fd id config gatewayId) es ↔
      ServesConfigured pf (atoi (intText id)) config ∧
        EachStep (Server.step pf) (KeepsServed pf) (started pf fd id config gatewayId) es := by
  have hmode : (started pf fd id config gatewayId).TunMode := by
    rw [started_eq]
    exact ⟨htap, hacc⟩
  have hstart : RoutesServed (started pf fd id config gatewayId) ↔
      ServesConfigured pf (atoi (intText id)) config := by
    rw [routesServed_iff hmode, started_eq]
    exact Iff.rfl
  rw [← hstart]
  refine throughout_iff_eachStep hmode ?_ (routesServed_step pf)
  intro s e h
  exact tunMode_of_frame (step_frame pf s e).symm h

/-- A mesh list and an online list without the address 10.1.2.3. -/
def unservedRun : List Event := staleRouteRun.take 2

/-- The address is routed into the tunnel and dispatched to the gateway. -/
theorem route_unserved_after_keepalive :
    ¬ Throughout (Server.step ⟨wire, id⟩) RoutesServed (started ⟨wire, id⟩ 3 1 {} 9)
      unservedRun := by
  intro h
  have hlast := h unservedRun [] rfl 0x0a010203
  revert hlast
  decide +kernel

/-- A list of other nodes serves its own routes. -/
theorem servesRoutes_of_peers {s : Server} {list : NodeInfoList}
    (hpeers : ∀ info ∈ list.cpeList, info.nodeId ≠ s.localId) (hroutes : s.routes = ∅) :
    ServesRoutes s (.mesh true list) := by
  intro d hd
  rcases hd with ⟨info, hinfo, _, p, hp, hcontains⟩ | ⟨r, hr, _⟩
  · have hkept := mem_keptInfos_of_prefix hinfo hp
    have hcovers : EntryCovers info d := .inr ⟨p, hp, hcontains⟩
    cases hf : firstEntry list d with
    | none =>
      have hno := List.find?_eq_none.mp hf info hkept
      exact absurd (decide_eq_true hcovers) hno
    | some first =>
      have hmem : first ∈ keptInfos list := List.mem_of_find?_eq_some hf
      exact ⟨first, rfl, hpeers first (List.mem_filter.mp hmem).1⟩
  · rw [hroutes] at hr
    cases hr

/-- The first mesh list alone keeps every route served. -/
theorem routes_served_mesh :
    Throughout (Server.step ⟨wire, id⟩) RoutesServed (started ⟨wire, id⟩ 3 1 {} 9)
      (staleRouteRun.take 1) := by
  refine (routes_served_iff ⟨wire, id⟩ 3 1 9 {} rfl rfl (staleRouteRun.take 1)).mpr ⟨?_, ?_⟩
  · rintro d ⟨r, hr, _⟩
    cases hr
  · refine eachStep_cons.mpr ⟨?_, eachStep_nil⟩
    refine servesRoutes_of_peers ?_ rfl
    decide

end Cpe.Proofs.Routes
