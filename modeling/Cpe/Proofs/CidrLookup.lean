import Cpe.Main.Runs
import Cpe.Main.Subnets
import Mathlib.Data.List.Find

/-! # Lookups as intervals

On a table whose subnet lists are canonical CIDRs, a lookup is a search for the
first node with the address itself, an interval that holds it, or the MAC. -/
namespace Cpe.Proofs.CidrLookup
open Cpe.Lib.ByteOrder Cpe.Lib.CString Cpe.Lib.BitPrefix Cpe.Lib.MemoTable Cpe.Main

/-- A node whose subnet list is canonical CIDRs between commas, some items being
empty. -/
structure ListedNode where
  node : CpeNode
  items : List (Option (Prefix 32))
  text : node.nodeSubnet = cidrText items

/-- The addresses of `net/n`, as unsigned integers. -/
def InNet (p : Prefix 32) (ip : U32) : Prop :=
  p.net.toNat ≤ ip.toNat ∧ ip.toNat ≤ p.net.toNat + 2 ^ (32 - p.len) - 1

instance (p : Prefix 32) (ip : U32) : Decidable (InNet p ip) := inferInstanceAs (Decidable (_ ∧ _))

def ListedNode.Matches (s : Server) (ip : U32) (mac : Bytes) (n : ListedNode) : Prop :=
  ip = n.node.nodeVirtualIP ∨ (∃ p ∈ n.items.reduceOption, InNet p ip) ∨
    s.config.tapMode ≠ 0 ∧ mac = n.node.nodeMacAddr

instance (s : Server) (ip : U32) (mac : Bytes) (n : ListedNode) : Decidable (n.Matches s ip mac) :=
  inferInstanceAs (Decidable (_ ∨ _ ∨ _))

/-- The id of the first node that matches, else the gateway or nobody. -/
def expectedId (s : Server) (ip : U32) (mac : Bytes) (table : List ListedNode) : U32 :=
  match table.find? fun n => n.Matches s ip mac with
  | some n => n.node.nodeID
  | none => if s.config.gateWay = 0 then s.gatewayId else 0

section
variable {s : Server} {ip : U32} {mac : Bytes}

theorem hits_iff_matches (n : ListedNode) : s.Hits ip mac n.node ↔ n.Matches s ip mac := by
  have hnets : (∃ p ∈ prefixesOf n.node.nodeSubnet, p.Contains ip) ↔
      ∃ p ∈ n.items.reduceOption, InNet p ip := by
    rw [n.text, prefixesOf_cidrText]
    simp only [Prefix.contains_iff_interval, InNet]
  unfold Server.Hits CpeNode.Covers ListedNode.Matches
  rw [hnets, or_assoc]

theorem hit_eq_find (table : List ListedNode) :
    s.hit ip mac (table.map ListedNode.node) =
      (table.find? fun n => n.Matches s ip mac).map ListedNode.node := by
  rw [Server.hit, List.find?_map]
  congr 1
  apply List.find?_congr
  intro n _
  exact decide_eq_decide.mpr (hits_iff_matches n)

end

/-- **An uncached lookup** gives the first node in list order that has the
address, an interval with it, or, in TAP mode, the MAC; else the fallback. -/
theorem lookup_eq_expectedId (s : Server) (table : List ListedNode)
    (htable : s.cpes = table.map ListedNode.node) (hacc : s.config.onlyAcc = 0) (ip : U32)
    (mac : Bytes) (hmiss : s.ip2nodeidCache ip = none) :
    s.getNodeIDFromIP ip mac = expectedId s ip mac table := by
  have hlookup : s.getNodeIDFromIP ip mac = s.uncached ip mac := by
    rw [getNodeIDFromIP_eq hacc, Memo.answer, hmiss, Option.getD_none]
  rw [hlookup, uncached_eq hacc, htable, hit_eq_find, Option.map_map, expectedId]
  cases table.find? fun n => n.Matches s ip mac with
  | none => rfl
  | some n => rfl

/-! ## A list with empty items -/

/-- A node with the list `,10.1.0.0/16,,10.2.4.0/22`. -/
def branchNode : ListedNode where
  node :=
    { nodeID := 4
      nodeVirtualIP := 0x0a000004
      nodeSubnetIPLow := 0
      nodeSubnetIPHigh := 0
      nodeSubnet := str ",10.1.0.0/16,,10.2.4.0/22"
      nodeMacAddr := [] }
  items := [none, some ⟨0x0a010000, 16, by decide, by decide⟩, none,
    some ⟨0x0a020400, 22, by decide, by decide⟩]
  text := by decide

def branchServer : Server := { started ⟨Cpe.Pro.wire, id⟩ 3 7 {} 9 with cpes := [branchNode.node] }

/-- The last address of 10.2.4.0/22 goes to it, and the next one does not. -/
theorem branch_interval_end :
    branchServer.getNodeIDFromIP 0x0a0207ff defaultMac = 4 ∧
      branchServer.getNodeIDFromIP 0x0a020800 defaultMac = 9 := by
  have hlast := lookup_eq_expectedId branchServer [branchNode] rfl rfl 0x0a0207ff defaultMac rfl
  have hnext := lookup_eq_expectedId branchServer [branchNode] rfl rfl 0x0a020800 defaultMac rfl
  rw [hlast, hnext]
  exact ⟨by decide +kernel, by decide +kernel⟩

end Cpe.Proofs.CidrLookup
