import Cpe.Main.Runs
import Cpe.Main.Subnets

/-! # First match and most specific match

The scan of the node table stops at the first node that covers an address. The
kernel takes the most specific prefix. The two agree in a table that lists no
prefix behind a wider one. -/
namespace Cpe.Proofs.MostSpecific
open Cpe.Lib.ByteOrder Cpe.Lib.CString Cpe.Lib.BitPrefix Cpe.Lib.FirstMatch Cpe.Lib.MemoTable
open Cpe.Main

/-- A node whose subnet list is the text of prefixes. -/
structure CidrNode where
  node : CpeNode
  prefixes : List (Prefix 32)
  text : node.nodeSubnet = subnetText prefixes

/-- The nets of a node: its virtual address as a /32, and its prefixes. -/
def CidrNode.nets (n : CidrNode) : Set (Prefix 32) :=
  {p | p = Prefix.host n.node.nodeVirtualIP ∨ p ∈ n.prefixes}

def prefixAddrs (p : Prefix 32) : Set U32 := {ip | p.Contains ip}

/-- The addresses in the nets of a node. -/
def CidrNode.owns : CidrNode → Set U32 := ownedBy prefixAddrs CidrNode.nets

/-- No prefix of a later node lies strictly inside one of an earlier node. -/
def NarrowFirst : List CidrNode → Prop := SpecificFirst prefixAddrs Prefix.len CidrNode.nets

theorem covers_iff_owns (n : CidrNode) (ip : U32) : n.node.Covers ip ↔ ip ∈ n.owns := by
  unfold CpeNode.Covers
  rw [n.text, prefixesOf_subnetText]
  constructor
  · rintro (h | ⟨p, hp, hc⟩)
    · exact ⟨Prefix.host n.node.nodeVirtualIP, .inl rfl, (host_contains _ _).mpr h⟩
    · exact ⟨p, .inr hp, hc⟩
  · rintro ⟨p, rfl | hp, hc⟩
    · exact .inl ((host_contains _ _).mp hc)
    · exact .inr ⟨p, hp, hc⟩

/-- Of two prefixes with a common address the longer lies inside the other. -/
theorem prefixAddrs_nested {p q : Prefix 32} {ip : U32} (hp : ip ∈ prefixAddrs p)
    (hq : ip ∈ prefixAddrs q) (h : p.len ≤ q.len) : prefixAddrs q ⊆ prefixAddrs p := by
  intro ip' hq'
  have hnet : p.Contains q.net := Prefix.Contains.net_of_le hp hq h
  have hin : ip' &&& mask 32 q.len = q.net := hq'
  show ip' &&& mask 32 p.len = p.net
  rw [← and_mask_and_mask h, hin]
  exact hnet

theorem nets_finite (n : CidrNode) : n.nets.Finite := by
  have hcover : n.nets ⊆ {p | p ∈ Prefix.host n.node.nodeVirtualIP :: n.prefixes} := by
    intro p hp
    exact List.mem_cons.mpr hp
  exact (List.finite_toSet _).subset hcover

/-- The first node that covers an address, in a table of such nodes. -/
theorem isFirst_owner {table : List CidrNode} {ip : U32} {n : CidrNode}
    (h : IsFirst CidrNode.owns table ip n) : owner (table.map CidrNode.node) ip = some n.node := by
  obtain ⟨pre, post, rfl, ho, hpre⟩ := h
  rw [owner_eq_some_iff]
  refine ⟨pre.map CidrNode.node, post.map CidrNode.node, by simp, (covers_iff_owns n ip).mpr ho, ?_⟩
  intro q hq hcovers
  obtain ⟨m, hm, rfl⟩ := List.mem_map.mp hq
  exact hpre m hm ((covers_iff_owns m ip).mp hcovers)

theorem exists_isFirst {table : List CidrNode} {ip : U32} (h : ∃ n ∈ table, ip ∈ n.owns) :
    ∃ n, IsFirst CidrNode.owns table ip n := by
  classical
  cases hf : table.find? fun n => ip ∈ n.owns with
  | some n => exact ⟨n, find?_eq_some_iff_isFirst.mp hf⟩
  | none =>
    obtain ⟨n, hn, ho⟩ := h
    exact absurd ho (find?_eq_none_iff_unowned.mp hf n hn)

/-- **The first node in list order** that covers an address is the one it is
sent to, and when no prefix stands behind a wider one of an earlier node, it has
a most specific prefix of the address. -/
theorem first_match_most_specific (s : Server) (htap : s.config.tapMode = 0)
    (hacc : s.config.onlyAcc = 0) (hcache : s.ip2nodeidCache = Memo.empty)
    (table : List CidrNode) (htable : s.cpes = table.map CidrNode.node) (ip : U32)
    (hcovered : ∃ n ∈ table, ip ∈ n.owns) :
    ∃ n, IsFirst CidrNode.owns table ip n ∧
      s.getNodeIDFromIP ip defaultMac = n.node.nodeID ∧
      (NarrowFirst table → ∃ p ∈ n.nets, p.Contains ip ∧
        ∀ m ∈ table, ∀ q ∈ m.nets, q.Contains ip → q.len ≤ p.len) := by
  have hmode : s.TunMode := ⟨htap, hacc⟩
  obtain ⟨n, hfirst⟩ := exists_isFirst hcovered
  refine ⟨n, hfirst, ?_, ?_⟩
  · have hlookup : s.tunLookup ip = n.node.nodeID := by
      rw [tunLookup_eq hmode, htable, isFirst_owner hfirst]
      rfl
    rw [getNodeIDFromIP_eq hacc, hcache, answer_empty]
    exact hlookup
  · intro hnarrow
    exact hfirst.most_specific prefixAddrs_nested nets_finite hnarrow

/-! ## A wider prefix in front -/

def tenSlash8 : Prefix 32 := ⟨0x0a000000, 8, by decide, by decide⟩

/-- A node for 10.0.0.0/8, -/
def wideNode : CidrNode where
  node :=
    { nodeID := 1
      nodeVirtualIP := 0x0a000001
      nodeSubnetIPLow := 0
      nodeSubnetIPHigh := 0
      nodeSubnet := subnetText [tenSlash8]
      nodeMacAddr := [] }
  prefixes := [tenSlash8]
  text := rfl

/-- and a peer with the address 10.1.2.3. -/
def hostNode : CidrNode where
  node :=
    { nodeID := 2
      nodeVirtualIP := 0x0a010203
      nodeSubnetIPLow := 0
      nodeSubnetIPHigh := 0
      nodeSubnet := subnetText []
      nodeMacAddr := [] }
  prefixes := []
  text := rfl

def tableOf (table : List CidrNode) : Server :=
  { started ⟨Cpe.Pro.wire, id⟩ 3 7 {} 9 with cpes := table.map CidrNode.node }

/-- With the wide node in front the peer's address goes to it. -/
theorem wide_prefix_captures :
    (tableOf [wideNode, hostNode]).getNodeIDFromIP 0x0a010203 defaultMac = 1 ∧
      ∀ p ∈ wideNode.nets, p.Contains 0x0a010203 →
        p.len < (Prefix.host hostNode.node.nodeVirtualIP).len := by
  refine ⟨by decide +kernel, ?_⟩
  rintro p (rfl | hp) hc
  · exact absurd hc (by decide)
  · rw [List.mem_singleton.mp hp]
    decide

/-- With the peer in front it does not. -/
theorem host_first_kept :
    ∃ n, IsFirst CidrNode.owns [hostNode, wideNode] 0x0a010203 n ∧
      (tableOf [hostNode, wideNode]).getNodeIDFromIP 0x0a010203 defaultMac = n.node.nodeID ∧
      (NarrowFirst [hostNode, wideNode] → ∃ p ∈ n.nets, p.Contains 0x0a010203 ∧
        ∀ m ∈ [hostNode, wideNode], ∀ q ∈ m.nets, q.Contains 0x0a010203 → q.len ≤ p.len) :=
  first_match_most_specific (tableOf [hostNode, wideNode]) rfl rfl rfl [hostNode, wideNode] rfl
    0x0a010203 ⟨hostNode, List.mem_cons_self, (covers_iff_owns _ _).mp (.inl rfl)⟩

end Cpe.Proofs.MostSpecific
