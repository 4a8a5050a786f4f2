import Cpe.Main.Updates
import Cpe.Main.Runs

/-! # Default routes in a mesh list

`handle_mesh_notify` leaves out the entries whose whole subnet text is
"0.0.0.0". Lookups and route calls work on the items of that text, and an item
without a slash is none of their entries: the text that is left out never had an
effect, and "0.0.0.0/0" is let through. -/
namespace Cpe.Proofs.DefaultRoute
open Cpe.Lib.ByteOrder Cpe.Lib.CString Cpe.Lib.InetAddr Cpe.Lib.BitPrefix Cpe.Lib.ProtoWire
open Cpe.Pro Cpe.Main

/-! ## Entries of length 0 -/

/-- An item that a lookup finds every address in. -/
def MatchesAll (net : Bytes) : Prop := ∀ ip, matchNets ip [net] = true

/-- The arguments of a call for the default route. -/
def DefaultRequest (request : Bytes × Bytes) : Prop :=
  inetAddr request.1 = 0 ∧ inetAddr request.2 = 0

/-- An item of two parts: 0.0.0.0 in some spelling, and a length that is read
as 0. -/
def DefaultItem (net : Bytes) : Prop :=
  ∃ subnet, netMeta net = some (subnet, 0) ∧ inetAddr subnet = 0

theorem htonl_eq_zero_iff (x : U32) : htonl x = 0 ↔ x = 0 := by
  constructor
  · intro h
    obtain ⟨h0, h1, h2, h3⟩ := byte_le32 (byte x 3) (byte x 2) (byte x 1) (byte x 0)
    rw [htonl] at h
    rw [h] at h0 h1 h2 h3
    rw [← le32_byte x, ← h0, ← h1, ← h2, ← h3]
    rfl
  · intro h
    rw [h]
    rfl

theorem matchesAll_iff (net : Bytes) :
    MatchesAll net ↔ ∃ p, prefixOf net = some p ∧ p.len = 0 := by
  have hsingle : ∀ ip, matchNets ip [net] = true ↔ ∃ p, prefixOf net = some p ∧ p.Contains ip := by
    intro ip
    rw [matchNets_iff]
    cases hp : prefixOf net with
    | none => simp [hp]
    | some p => simp [hp]
  constructor
  · intro h
    obtain ⟨p, hp, _⟩ := (hsingle 0).mp (h 0)
    refine ⟨p, hp, p.contains_all_iff.mp fun ip => ?_⟩
    obtain ⟨q, hq, hcontains⟩ := (hsingle ip).mp (h ip)
    rw [hp] at hq
    cases hq
    exact hcontains
  · intro h ip
    obtain ⟨p, hp, hlen⟩ := h
    exact (hsingle ip).mpr ⟨p, hp, p.contains_all_iff.mpr hlen ip⟩

theorem defaultItem_iff (net : Bytes) : DefaultItem net ↔ MatchesAll net := by
  rw [matchesAll_iff]
  constructor
  · intro h
    obtain ⟨subnet, hmeta, hzero⟩ := h
    have hcanonical : (0 : U32) &&& mask 32 0 = 0 := BitVec.zero_and
    refine ⟨⟨0, 0, Nat.zero_le _, hcanonical⟩, ?_, rfl⟩
    rw [prefixOf, hmeta, Option.bind_some, (htonl_eq_zero_iff _).mpr hzero]
    exact dif_pos ⟨Nat.zero_le _, hcanonical⟩
  · intro h
    obtain ⟨p, hp, hlen⟩ := h
    unfold prefixOf at hp
    obtain ⟨m, hmeta, hof⟩ := Option.bind_eq_some_iff.mp hp
    obtain ⟨subnet, bits⟩ := m
    unfold Prefix.of? at hof
    split at hof
    · rename_i hcanonical
      cases hof
      have hbits : bits = 0 := BitVec.eq_of_toNat_eq hlen
      subst hbits
      have hzero := hcanonical.2
      rw [show (0 : U32).toNat = 0 from rfl, mask_zero, BitVec.and_zero] at hzero
      exact ⟨subnet, hmeta, (htonl_eq_zero_iff _).mp hzero.symm⟩
    · cases hof

/-- The calls for the default route are those made for such an item. -/
theorem exists_defaultRequest {node : CpeNode} {request : Bytes × Bytes}
    (hmem : request ∈ nodeRequests node) (hdefault : DefaultRequest request) :
    ∃ net ∈ split node.nodeSubnet (str ","), DefaultItem net := by
  obtain ⟨net, hnet, hrequest⟩ := List.mem_filterMap.mp hmem
  obtain ⟨m, hmeta, heq⟩ := Option.map_eq_some_iff.mp hrequest
  obtain ⟨subnet, bits⟩ := m
  subst heq
  obtain ⟨hnetwork, hmask⟩ := hdefault
  have hzero : mask 32 bits.toNat = 0#32 := by
    rw [← bitsetMask_eq, ← inetAddr_valueToIP (bitsetMask bits)]
    exact (htonl_eq_zero_iff _).mpr hmask
  have hbits : bits = 0 :=
    BitVec.eq_of_toNat_eq ((mask_eq_zero_iff (netMeta_le hmeta)).mp hzero)
  subst hbits
  exact ⟨net, hnet, subnet, hmeta, hnetwork⟩

/-! ## After a mesh notify -/

/-- No node has an entry for every address, and the route loop makes no call
for the default route. -/
structure NoDefault (s : Server) : Prop where
  entries : ∀ node ∈ s.cpes, ∀ net ∈ split node.nodeSubnet (str ","), ¬ MatchesAll net
  requests : ∀ request ∈ routeRequests s, ¬ DefaultRequest request

theorem noDefault_iff (s : Server) :
    NoDefault s ↔
      ∀ node ∈ s.cpes, ∀ net ∈ split node.nodeSubnet (str ","), ¬ DefaultItem net := by
  constructor
  · intro h node hnode net hnet hdefault
    exact h.entries node hnode net hnet ((defaultItem_iff net).mp hdefault)
  · intro h
    refine ⟨?_, ?_⟩
    · intro node hnode net hnet hall
      exact h node hnode net hnet ((defaultItem_iff net).mpr hall)
    · intro request hrequest hdefault
      obtain ⟨node, hnode, hmem⟩ := List.mem_flatMap.mp hrequest
      obtain ⟨net, hnet, hitem⟩ := exists_defaultRequest hmem hdefault
      exact h node (List.mem_filter.mp hnode).1 net hnet hitem

/-- The text that is left out has no such item. -/
theorem no_defaultItem_bare : ∀ net ∈ split (str "0.0.0.0") (str ","), ¬ DefaultItem net := by
  intro net hnet hdefault
  obtain ⟨subnet, hmeta, _⟩ := hdefault
  have hbare : ∀ net ∈ split (str "0.0.0.0") (str ","), netMeta net = none := by decide
  rw [hbare net hnet] at hmeta
  cases hmeta

/-- **After a mesh notify** no node matches every address and no default route
is asked for, exactly if no item of a subnet text of the list is 0.0.0.0 with
length 0. -/
theorem no_default_iff (pf : Platform) (s : Server) (cpesInfo : Bytes) (list : NodeInfoList)
    (haccepted : Accepts pf cpesInfo list) :
    NoDefault (s.handleMeshNotify pf cpesInfo) ↔
      ∀ info ∈ list.cpeList, ∀ net ∈ split info.subnetIpStart (str ","), ¬ DefaultItem net := by
  rw [handleMeshNotify_accepted haccepted, noDefault_iff]
  show (∀ node ∈ meshTable pf list, _) ↔ _
  rw [meshTable_eq]
  constructor
  · intro h info hinfo
    by_cases hbare : info.subnetIpStart = str "0.0.0.0"
    · rw [hbare]
      exact no_defaultItem_bare
    · have hkept : info ∈ keptInfos list := List.mem_filter.mpr ⟨hinfo, decide_eq_true hbare⟩
      exact h (entryNode pf info) (List.mem_map_of_mem hkept)
  · intro h node hnode
    obtain ⟨info, hkept, rfl⟩ := List.mem_map.mp hnode
    exact h info (List.mem_filter.mp hkept).1

/-! ## "0.0.0.0/0" -/

/-- A list of one peer with a subnet text. -/
def peerWith (subnet : String) : NodeInfoList :=
  ⟨[{ nodeId := 2, virtualIp := str "10.0.0.2", subnetIpStart := str subnet, netMask := 24 }]⟩

/-- A server without peers. -/
def alone : Server := started ⟨wire, id⟩ 3 1 {} 9

theorem accepts_peerWith (subnet : String) (h : (peerWith subnet).serialize.length ≤ maxSize)
    (hne : (peerWith subnet).serialize ≠ []) :
    Accepts ⟨wire, id⟩ (peerWith subnet).serialize (peerWith subnet) :=
  ⟨hne, nodeInfoList_parse h⟩

/-- The peer takes every address, and the default route is asked for. -/
theorem default_route_announced :
    ¬ NoDefault (alone.handleMeshNotify ⟨wire, id⟩ (peerWith "0.0.0.0/0").serialize) ∧
      ∃ request ∈ routeRequests
          (alone.handleMeshNotify ⟨wire, id⟩ (peerWith "0.0.0.0/0").serialize),
        DefaultRequest request := by
  have hrequest : ∃ request ∈ routeRequests
      (alone.handleMeshNotify ⟨wire, id⟩ (peerWith "0.0.0.0/0").serialize),
      DefaultRequest request := by
    refine ⟨(str "0.0.0.0", str "0.0.0.0"), by decide +kernel, ?_⟩
    exact ⟨by decide +kernel, by decide +kernel⟩
  refine ⟨?_, hrequest⟩
  intro h
  obtain ⟨request, hmem, hdefault⟩ := hrequest
  exact h.requests request hmem hdefault

theorem default_route_absent :
    NoDefault (alone.handleMeshNotify ⟨wire, id⟩ (peerWith "10.0.0.0/24").serialize) := by
  refine (no_default_iff ⟨wire, id⟩ alone _ (peerWith "10.0.0.0/24")
    (accepts_peerWith "10.0.0.0/24" (by decide +kernel) (by decide +kernel))).mpr ?_
  intro info hinfo net hnet hdefault
  obtain ⟨subnet, hmeta, _⟩ := hdefault
  have hlength : ∀ info ∈ (peerWith "10.0.0.0/24").cpeList,
      ∀ net ∈ split info.subnetIpStart (str ","),
        netMeta net = some (str "10.0.0.0", 24) := by decide +kernel
  rw [hlength info hinfo net hnet] at hmeta
  cases hmeta

end Cpe.Proofs.DefaultRoute
