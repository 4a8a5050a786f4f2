import Cpe.Lib.BitPrefix
import Cpe.Lib.FirstMatch
import Cpe.Main.Dispatch
import Mathlib.Data.Finset.Dedup

/-! # What a lookup and the route calls do

The texts of a subnet list denote prefixes, and a node covers its virtual
address and its prefixes. The scan of `getNodeIDFromIP` is the first node that
covers the address, and the route calls add and remove the prefixes of the
nodes other than the local one. -/
namespace Cpe.Main
open Cpe.Lib.ByteOrder Cpe.Lib.CString Cpe.Lib.InetAddr Cpe.Lib.MemoTable Cpe.Lib.BitPrefix
open Cpe.Lib.Number Cpe.Lib.FirstMatch

/-! ## Prefixes of a subnet list -/

/-- The prefix one entry denotes, if it is well formed and has no host bits. -/
def prefixOf (net : Bytes) : Option (Prefix 32) :=
  (netMeta net).bind fun m => Prefix.of? (htonl (inetAddr m.1)) m.2.toNat

def prefixesOf (subnet : Bytes) : List (Prefix 32) := (split subnet (str ",")).filterMap prefixOf

theorem netMeta_le {net subnet : Bytes} {bits : U32} (h : netMeta net = some (subnet, bits)) :
    bits.toNat ≤ 32 := by
  unfold netMeta at h
  split at h
  · split at h
    · cases h
    · rename_i hle
      cases h
      exact BitVec.le_def.mp (BitVec.not_lt.mp hle)
  · cases h

/-- Clearing bits one after the other clears exactly those bits. -/
theorem getLsbD_clearBits (m : U32) (k i : Nat) :
    ((List.range k).foldl (fun mask i => mask &&& ~~~(1#32 <<< i)) m).getLsbD i =
      (m.getLsbD i && !decide (i < k)) := by
  induction k with
  | zero => simp
  | succ k ih =>
    rw [List.range_succ, List.foldl_append, List.foldl_cons, List.foldl_nil, BitVec.getLsbD_and, ih]
    by_cases hi : i < 32
    · simp only [BitVec.getLsbD_not, hi, decide_true, Bool.true_and, BitVec.getLsbD_shiftLeft,
        BitVec.getLsbD_one]
      by_cases hk : i < k
      · simp [hk, Nat.lt_succ_of_lt hk]
      · by_cases he : i = k
        · subst he
          simp
        · simp [hk, show ¬ i < k + 1 by omega, show ¬ i - k = 0 by omega]
    · simp [BitVec.getLsbD_of_ge m i (by omega)]

theorem bitsetMask_eq (netmask : U32) : bitsetMask netmask = mask 32 netmask.toNat := by
  apply BitVec.eq_of_getLsbD_eq
  intro i hi
  rw [bitsetMask, getLsbD_clearBits, getLsbD_mask,
    show (0xffffffff : U32) = BitVec.allOnes 32 from rfl, BitVec.getLsbD_allOnes]
  by_cases hm : i < 32 - netmask.toNat
  · have hlow : ¬ 32 - netmask.toNat ≤ i := by omega
    simp only [hm, hlow, decide_true, decide_false, Bool.not_true, Bool.and_false]
  · simp [hm, hi, Nat.le_of_not_lt hm]

/-- The loop over a subnet list finds an entry exactly if a prefix of the list
contains the address. -/
theorem matchNets_iff (ip : U32) (nets : List Bytes) :
    matchNets ip nets = true ↔ ∃ p ∈ nets.filterMap prefixOf, p.Contains ip := by
  induction nets with
  | nil => simp [matchNets]
  | cons net nets ih =>
    rw [matchNets]
    cases hm : netMeta net with
    | none =>
      have hp : prefixOf net = none := by rw [prefixOf, hm]; rfl
      simp only [ih, List.filterMap_cons_none hp]
    | some m =>
      obtain ⟨subnet, bits⟩ := m
      have hle := netMeta_le hm
      have hp : prefixOf net = Prefix.of? (htonl (inetAddr subnet)) bits.toNat := by
        rw [prefixOf, hm]; rfl
      have hiff := and_mask_eq_iff hle ip (htonl (inetAddr subnet))
      rw [← hp, ← bitsetMask_eq bits] at hiff
      simp only
      cases hof : prefixOf net with
      | none =>
        have hne : ¬ ip &&& bitsetMask bits = htonl (inetAddr subnet) := by
          intro he
          obtain ⟨p, hp', _⟩ := hiff.mp he
          rw [hof] at hp'
          cases hp'
        rw [if_neg hne, ih, List.filterMap_cons_none hof]
      | some p =>
        rw [List.filterMap_cons_some hof]
        by_cases he : ip &&& bitsetMask bits = htonl (inetAddr subnet)
        · obtain ⟨q, hq, hc⟩ := hiff.mp he
          rw [hof] at hq
          cases hq
          simp [he, hc]
        · have hc : ¬ p.Contains ip := fun hc => he (hiff.mpr ⟨p, hof, hc⟩)
          simp [he, ih, hc]

/-! ## The scan -/

/-- A node covers its virtual address and the addresses of its prefixes. -/
def CpeNode.Covers (node : CpeNode) (ip : U32) : Prop :=
  ip = node.nodeVirtualIP ∨ ∃ p ∈ prefixesOf node.nodeSubnet, p.Contains ip

instance (node : CpeNode) (ip : U32) : Decidable (node.Covers ip) :=
  inferInstanceAs (Decidable (_ ∨ _))

/-- What makes the scan stop at a node. -/
def Server.Hits (s : Server) (ip : U32) (mac : Bytes) (node : CpeNode) : Prop :=
  node.Covers ip ∨ s.config.tapMode ≠ 0 ∧ mac = node.nodeMacAddr

instance (s : Server) (ip : U32) (mac : Bytes) (node : CpeNode) : Decidable (s.Hits ip mac node) :=
  inferInstanceAs (Decidable (_ ∨ _))

/-- The id for addresses no node covers. -/
def Server.fallback (s : Server) : U32 := if s.config.gateWay = 0 then s.gatewayId else 0

/-- The node the scan of a table stops at. -/
def Server.hit (s : Server) (ip : U32) (mac : Bytes) (cpes : List CpeNode) : Option CpeNode :=
  cpes.find? fun node => s.Hits ip mac node

theorem scanCpes_eq (s : Server) (ip : U32) (mac : Bytes) (cpes : List CpeNode) :
    s.scanCpes ip mac cpes = ((s.hit ip mac cpes).map CpeNode.nodeID).getD s.fallback := by
  induction cpes with
  | nil => rfl
  | cons node cpes ih =>
    rw [Server.scanCpes, Server.hit, List.find?_cons]
    have hnets := matchNets_iff ip (split node.nodeSubnet (str ","))
    by_cases hv : ip = node.nodeVirtualIP
    · simp [hv, Server.Hits, CpeNode.Covers]
    · by_cases hn : matchNets ip (split node.nodeSubnet (str ",")) = true
      · have hc : node.Covers ip := .inr (hnets.mp hn)
        simp [hv, hn, Server.Hits, hc]
      · have hc : ¬ node.Covers ip := by
          rintro (h | h)
          · exact hv h
          · exact hn (hnets.mpr h)
        by_cases hm : s.config.tapMode ≠ 0 ∧ mac = node.nodeMacAddr
        · have hh : s.Hits ip mac node := .inr hm
          rw [if_neg hv, if_neg hn, if_pos hm]
          simp [hh]
        · have hh : ¬ s.Hits ip mac node := by
            rintro (h | h)
            · exact hc h
            · exact hm h
          rw [if_neg hv, if_neg hn, if_neg hm, ih]
          simp [hh, Server.hit]

/-- The first node of a table that covers an address. -/
def owner (cpes : List CpeNode) (ip : U32) : Option CpeNode := cpes.find? fun node => node.Covers ip

/-- The addresses a node covers. -/
def addrs (node : CpeNode) : Set U32 := {ip | node.Covers ip}

instance (node : CpeNode) (ip : U32) : Decidable (ip ∈ addrs node) :=
  inferInstanceAs (Decidable (node.Covers ip))

theorem owner_eq (cpes : List CpeNode) (ip : U32) :
    owner cpes ip = cpes.find? fun node => ip ∈ addrs node := rfl

theorem owner_eq_some_iff {cpes : List CpeNode} {ip : U32} {node : CpeNode} :
    owner cpes ip = some node ↔ IsFirst addrs cpes ip node := by
  rw [owner_eq, find?_eq_some_iff_isFirst]

theorem owner_eq_none_iff {cpes : List CpeNode} {ip : U32} :
    owner cpes ip = none ↔ Unowned addrs cpes ip := by
  rw [owner_eq, find?_eq_none_iff_unowned]

/-- In TUN mode the scan looks at addresses only. -/
theorem hit_tun {s : Server} (h : s.config.tapMode = 0) (ip : U32) (mac : Bytes)
    (cpes : List CpeNode) : s.hit ip mac cpes = owner cpes ip := by
  unfold Server.hit owner
  congr 1
  funext node
  simp [Server.Hits, h]

/-- The same state with an empty cache. -/
def Server.forget (s : Server) : Server := { s with ip2nodeidCache := Memo.empty }

/-- A lookup with an empty cache. -/
def Server.uncached (s : Server) (ip : U32) (mac : Bytes) : U32 := s.forget.getNodeIDFromIP ip mac

theorem scanCpes_forget (s : Server) (ip : U32) (mac : Bytes) (cpes : List CpeNode) :
    s.forget.scanCpes ip mac cpes = s.scanCpes ip mac cpes := by
  rw [scanCpes_eq, scanCpes_eq]
  rfl

theorem uncached_eq {s : Server} (hacc : s.config.onlyAcc = 0) (ip : U32) (mac : Bytes) :
    s.uncached ip mac = ((s.hit ip mac s.cpes).map CpeNode.nodeID).getD s.fallback := by
  rw [← scanCpes_eq, ← scanCpes_forget]
  unfold Server.uncached Server.getNodeIDFromIP
  rw [if_neg (by rw [Server.forget, hacc]; decide)]
  rfl

/-- A lookup answers from the cache, else as with an empty cache. -/
theorem getNodeIDFromIP_eq {s : Server} (hacc : s.config.onlyAcc = 0) (ip : U32) (mac : Bytes) :
    s.getNodeIDFromIP ip mac = s.ip2nodeidCache.answer ip (s.uncached ip mac) := by
  rw [uncached_eq hacc, ← scanCpes_eq]
  unfold Server.getNodeIDFromIP Memo.answer
  rw [if_neg (by rw [hacc]; decide)]
  cases s.ip2nodeidCache ip <;> rfl

/-! ## Routes -/

/-- The id `add_route_for_nodes` and `del_route_for_nodes` skip. -/
def Server.localId (s : Server) : U32 := atoi s.nodeId

/-- A prefix as a route. -/
def toRoute (p : Prefix 32) : Route :=
  ⟨p.net, mask 32 p.len, (and_not_eq_zero_iff _ _).mpr p.canonical⟩

def Route.Covers (r : Route) (ip : U32) : Prop := ip &&& r.netmask = r.network

instance (r : Route) (ip : U32) : Decidable (r.Covers ip) := inferInstanceAs (Decidable (_ = _))

theorem toRoute_covers (p : Prefix 32) (ip : U32) : (toRoute p).Covers ip ↔ p.Contains ip :=
  Iff.rfl

/-- The routes of the entries of the nodes other than `localId`, in order. -/
def routeList (localId : U32) (cpes : List CpeNode) : List Route :=
  (cpes.filter (localId ≠ ·.nodeID)).flatMap fun node =>
    (prefixesOf node.nodeSubnet).map toRoute

def routesOf (localId : U32) (cpes : List CpeNode) : Finset Route :=
  (routeList localId cpes).toFinset

/-- The texts the loops pass on denote the entry's prefix. -/
theorem routeOf_netMeta {net subnet : Bytes} {bits : U32} (h : netMeta net = some (subnet, bits)) :
    routeOf subnet (valueToIP (bitsetMask bits)) = (prefixOf net).map toRoute := by
  have hle := netMeta_le h
  rw [routeOf, inetAddr_valueToIP, bitsetMask_eq bits, prefixOf, h, Option.bind_some]
  unfold Route.of? Prefix.of?
  simp only [hle, true_and]
  by_cases hc : htonl (inetAddr subnet) &&& mask 32 bits.toNat = htonl (inetAddr subnet)
  · rw [dif_pos hc, dif_pos ((and_not_eq_zero_iff _ _).mpr hc)]
    rfl
  · rw [dif_neg hc, dif_neg (fun h => hc ((and_not_eq_zero_iff _ _).mp h))]
    rfl

/-- The texts of the calls that the entries of one node lead to. -/
def nodeRequests (node : CpeNode) : List (Bytes × Bytes) :=
  (split node.nodeSubnet (str ",")).filterMap fun net =>
    (netMeta net).map fun m => (m.1, valueToIP (bitsetMask m.2))

def requestsOf (localId : U32) (cpes : List CpeNode) : List (Bytes × Bytes) :=
  (cpes.filter (localId ≠ ·.nodeID)).flatMap nodeRequests

/-- The arguments of the route calls of the loop over the nodes, in order. -/
def routeRequests (s : Server) : List (Bytes × Bytes) := requestsOf s.localId s.cpes

theorem requestsOf_cons (localId : U32) (node : CpeNode) (cpes : List CpeNode) :
    requestsOf localId (node :: cpes) =
      (if localId = node.nodeID then [] else nodeRequests node) ++ requestsOf localId cpes := by
  unfold requestsOf
  by_cases hid : localId = node.nodeID
  · simp [hid]
  · simp [hid]

section
variable {route : Bytes → Bytes → Finset Route → Finset Route}

/-- The loop over one subnet list. -/
theorem foldl_nodeRequests (s : Server) (nets : List Bytes) :
    nets.foldl (fun s net => match netMeta net with
      | none => s
      | some (subnet, netmask) =>
        { s with routes := route subnet (valueToIP (bitsetMask netmask)) s.routes }) s =
    { s with
      routes := (nets.filterMap fun net =>
        (netMeta net).map fun m => (m.1, valueToIP (bitsetMask m.2))).foldl
          (fun routes request => route request.1 request.2 routes) s.routes } := by
  induction nets generalizing s with
  | nil => rfl
  | cons net nets ih =>
    rw [List.foldl_cons, ih, List.filterMap_cons]
    cases netMeta net with
    | none => rfl
    | some m => rfl

/-- The loop over the nodes. -/
theorem foldl_requestsOf (s : Server) (cpes : List CpeNode) :
    cpes.foldl (fun s node =>
      if atoi s.nodeId = node.nodeID then s
      else (split node.nodeSubnet (str ",")).foldl (fun s net => match netMeta net with
        | none => s
        | some (subnet, netmask) =>
          { s with routes := route subnet (valueToIP (bitsetMask netmask)) s.routes }) s) s =
    { s with
      routes := (requestsOf s.localId cpes).foldl
        (fun routes request => route request.1 request.2 routes) s.routes } := by
  induction cpes generalizing s with
  | nil => rfl
  | cons node cpes ih =>
    rw [List.foldl_cons, ih, requestsOf_cons, List.foldl_append]
    by_cases hid : atoi s.nodeId = node.nodeID
    · rw [if_pos hid, if_pos (show s.localId = node.nodeID from hid)]
      rfl
    · rw [if_neg hid, if_neg (show ¬ s.localId = node.nodeID from hid), foldl_nodeRequests]
      rfl

/-- **The route loop makes these calls** and changes nothing else. -/
theorem routeForNodes_requests (s : Server) :
    s.routeForNodes route =
      { s with
        routes := (routeRequests s).foldl
          (fun routes request => route request.1 request.2 routes) s.routes } :=
  foldl_requestsOf s s.cpes

end

/-- The calls whose texts denote a route are made for the routes of the table. -/
theorem requestsOf_routes (localId : U32) (cpes : List CpeNode) :
    (requestsOf localId cpes).filterMap (fun request => routeOf request.1 request.2) =
      routeList localId cpes := by
  have hnode : ∀ node : CpeNode,
      (nodeRequests node).filterMap (fun request => routeOf request.1 request.2) =
        (prefixesOf node.nodeSubnet).map toRoute := by
    intro node
    rw [nodeRequests, prefixesOf, List.filterMap_filterMap, List.map_filterMap]
    congr 1
    funext net
    cases hm : netMeta net with
    | none =>
      have hp : prefixOf net = none := by rw [prefixOf, hm]; rfl
      rw [hp]
      rfl
    | some m =>
      obtain ⟨subnet, bits⟩ := m
      exact routeOf_netMeta hm
  unfold requestsOf routeList
  rw [List.filterMap_flatMap]
  simp only [hnode]

variable {ioctl : Finset Route → Route → Finset Route}

theorem foldl_routeNet (routes : Finset Route) (requests : List (Bytes × Bytes)) :
    requests.foldl (fun routes request => routeNet ioctl request.1 request.2 routes) routes =
      (requests.filterMap fun request => routeOf request.1 request.2).foldl ioctl routes := by
  induction requests generalizing routes with
  | nil => rfl
  | cons request requests ih =>
    rw [List.foldl_cons, ih, List.filterMap_cons, routeNet]
    cases routeOf request.1 request.2 with
    | none => rfl
    | some r => rfl

theorem routeForNodes_eq (s : Server) :
    s.routeForNodes (routeNet ioctl) =
      { s with routes := (routeList s.localId s.cpes).foldl ioctl s.routes } := by
  rw [routeForNodes_requests, foldl_routeNet, routeRequests, requestsOf_routes]

theorem foldl_insert (routes : Finset Route) (rs : List Route) :
    rs.foldl (fun routes r => insert r routes) routes = routes ∪ rs.toFinset := by
  induction rs generalizing routes with
  | nil => simp
  | cons r rs ih =>
    rw [List.foldl_cons, ih, List.toFinset_cons, Finset.insert_union, Finset.union_insert]

theorem foldl_erase (routes : Finset Route) (rs : List Route) :
    rs.foldl (fun routes r => routes.erase r) routes = routes \ rs.toFinset := by
  induction rs generalizing routes with
  | nil => simp
  | cons r rs ih =>
    rw [List.foldl_cons, ih, List.toFinset_cons, Finset.sdiff_insert, Finset.erase_sdiff_comm]

/-- **Adding routes** is a union with the routes of the current table, -/
theorem addRouteForNodes_eq (s : Server) :
    s.addRouteForNodes = { s with routes := s.routes ∪ routesOf s.localId s.cpes } := by
  rw [Server.addRouteForNodes, routeAddNet, routeForNodes_eq, foldl_insert]
  rfl

/-- and **deleting routes** takes the routes of the current table away. -/
theorem delRouteForNodes_eq (s : Server) :
    s.delRouteForNodes = { s with routes := s.routes \ routesOf s.localId s.cpes } := by
  rw [Server.delRouteForNodes, routeDelNet, routeForNodes_eq, foldl_erase]
  rfl

end Cpe.Main
