import Cpe.Lib.CInt
import Cpe.Main.Updates
import Cpe.Main.Runs

/-! # The mask arithmetic of a mesh list

`net_mask` comes from the wire and goes unchecked into `1 << (32 - n)`, in
`handle_mesh_notify` and again in `init_mesh_cpes`, which adds the size of the
network to an address that may not have parsed. The loops over the subnet texts
do check their lengths. -/
namespace Cpe.Proofs.MaskArithmetic
open Cpe.Lib.ByteOrder Cpe.Lib.CString Cpe.Lib.InetAddr Cpe.Lib.CInt Cpe.Lib.ProtoWire
open Cpe.Pro Cpe.Main

/-! ## Checked expressions -/

/-- `mask` of `handle_mesh_notify`. -/
def meshMask? (info : NetInfo) : Option U32 := do
  let amount ← int? 32 (32 - info.netMask.toInt)
  let size ← shl? 32 1 amount
  return 0xFFFFFFFF - BitVec.ofInt 32 size + 1

/-- `ip_count` of `init_mesh_cpes`. -/
def ipCount? (itor : NodeInfo) : Option Int := do
  let maskBit := itor.netMask.toInt
  let amount ← int? 32 (32 - maskBit)
  let size ← shl? 32 1 amount
  int? 32 (size - 1)

/-- A length whose shift is defined. -/
def Shiftable (netMask : U32) : Prop := 2 ≤ netMask.toInt ∧ netMask.toInt ≤ 32

instance (netMask : U32) : Decidable (Shiftable netMask) := inferInstanceAs (Decidable (_ ∧ _))

theorem Shiftable.toNat {netMask : U32} (h : Shiftable netMask) :
    2 ≤ netMask.toNat ∧ netMask.toNat ≤ 32 ∧ netMask.toInt = netMask.toNat := by
  obtain ⟨hlow, hhigh⟩ := h
  have hlt := netMask.isLt
  rw [BitVec.toInt_eq_toNat_cond] at hlow hhigh ⊢
  split at hlow <;> omega

/-- The shift of both functions, and when it is defined. -/
theorem shift_eq_some_iff {netMask : U32} {size : Int} :
    (int? 32 (32 - netMask.toInt)).bind (shl? 32 1) = some size ↔
      Shiftable netMask ∧ size = 2 ^ (32 - netMask.toNat) := by
  have hint := BitVec.toInt_lt (x := netMask)
  have hneg := BitVec.le_toInt netMask
  constructor
  · intro h
    obtain ⟨amount, hamount, hshl⟩ := Option.bind_eq_some_iff.mp h
    obtain ⟨_, rfl⟩ := int?_eq_some_iff.mp hamount
    obtain ⟨hnonneg, hwidth, hsize⟩ := shl?_one_eq_some_iff.mp hshl
    have hshift : Shiftable netMask := ⟨by omega, by omega⟩
    obtain ⟨_, _, heq⟩ := hshift.toNat
    have hexp : (32 - netMask.toInt).toNat = 32 - netMask.toNat := by omega
    rw [hexp] at hsize
    exact ⟨hshift, hsize⟩
  · intro h
    obtain ⟨hshift, hsize⟩ := h
    obtain ⟨hlow, hhigh, heq⟩ := hshift.toNat
    have hexp : (32 - netMask.toInt).toNat = 32 - netMask.toNat := by omega
    have hrange : InRange 32 (32 - netMask.toInt) := by
      unfold InRange
      omega
    rw [int?_eq_some_iff.mpr ⟨hrange, rfl⟩, Option.bind_some, shl?_one_eq_some_iff, hexp]
    exact ⟨by omega, by omega, hsize⟩

theorem meshMask?_isSome_iff (info : NetInfo) :
    (meshMask? info).isSome ↔ Shiftable info.netMask := by
  have hbind : meshMask? info = ((int? 32 (32 - info.netMask.toInt)).bind (shl? 32 1)).map
      fun size => 0xFFFFFFFF - BitVec.ofInt 32 size + 1 := by
    unfold meshMask?
    cases int? 32 (32 - info.netMask.toInt) with
    | none => rfl
    | some amount =>
      show ((shl? 32 1 amount).bind fun size => some _) = (shl? 32 1 amount).map _
      cases shl? 32 1 amount <;> rfl
  rw [hbind, Option.isSome_map, Option.isSome_iff_exists]
  constructor
  · intro h
    obtain ⟨size, hsize⟩ := h
    exact (shift_eq_some_iff.mp hsize).1
  · intro h
    exact ⟨_, shift_eq_some_iff.mpr ⟨h, rfl⟩⟩

theorem ipCount?_eq_some_iff {itor : NodeInfo} {count : Int} :
    ipCount? itor = some count ↔
      Shiftable itor.netMask ∧ count = 2 ^ (32 - itor.netMask.toNat) - 1 := by
  have hbind : ipCount? itor = ((int? 32 (32 - itor.netMask.toInt)).bind (shl? 32 1)).bind
      fun size => int? 32 (size - 1) := by
    rw [Option.bind_assoc]
    rfl
  rw [hbind, Option.bind_eq_some_iff]
  constructor
  · intro h
    obtain ⟨size, hsize, hcount⟩ := h
    obtain ⟨hshift, rfl⟩ := shift_eq_some_iff.mp hsize
    exact ⟨hshift, (int?_eq_some_iff.mp hcount).2⟩
  · intro h
    obtain ⟨hshift, rfl⟩ := h
    refine ⟨_, shift_eq_some_iff.mpr ⟨hshift, rfl⟩, int?_eq_some_iff.mpr ⟨?_, rfl⟩⟩
    obtain ⟨hlow, _, _⟩ := hshift.toNat
    have hrange := (inRange_two_pow (w := 32) (32 - itor.netMask.toNat)).mpr (by omega)
    have hpos : (0 : Int) < 2 ^ (32 - itor.netMask.toNat) := Int.pow_pos (by decide)
    unfold InRange at hrange ⊢
    omega

/-! ## The stored ranges -/

/-- The address a node's range starts at. -/
def lowOf (subnet : Bytes) : U32 := htonl (inetAddr subnet)

/-- `ip_count` is defined and added to the low address without a wrap. -/
def CountFits (itor : NodeInfo) : Prop :=
  ∃ count, ipCount? itor = some count ∧ (lowOf itor.subNet).toNat + count < 2 ^ 32

/-- A network of length `n` that starts at the address ends in the address
space. -/
def NetFits (subnet : Bytes) (netMask : U32) : Prop :=
  (lowOf subnet).toNat + 2 ^ (32 - netMask.toNat) ≤ 2 ^ 32

instance (subnet : Bytes) (netMask : U32) : Decidable (NetFits subnet netMask) :=
  inferInstanceAs (Decidable (_ ≤ _))

theorem countFits_iff (itor : NodeInfo) :
    CountFits itor ↔ Shiftable itor.netMask ∧ NetFits itor.subNet itor.netMask := by
  have hcast : ((2 ^ (32 - itor.netMask.toNat) : Nat) : Int) = 2 ^ (32 - itor.netMask.toNat) := by
    push_cast
    rfl
  unfold CountFits NetFits
  constructor
  · intro h
    obtain ⟨count, hcount, hfits⟩ := h
    obtain ⟨hshift, rfl⟩ := ipCount?_eq_some_iff.mp hcount
    exact ⟨hshift, by omega⟩
  · intro h
    obtain ⟨hshift, hfits⟩ := h
    exact ⟨_, ipCount?_eq_some_iff.mpr ⟨hshift, rfl⟩, by omega⟩

/-- Where the shift is defined, the node's high address is the low one and the
count, cut to 32 bits. -/
theorem meshNode_high (pf : Platform) {itor : NodeInfo} (h : Shiftable itor.netMask) :
    (meshNode pf itor).nodeSubnetIPHigh.toNat =
      ((lowOf itor.subNet).toNat + (2 ^ (32 - itor.netMask.toNat) - 1)) % 2 ^ 32 := by
  obtain ⟨hlow, hhigh, _⟩ := h.toNat
  have hthirtytwo : (32 : U32).toNat = 32 := rfl
  have hamount : ((32 : U32) - itor.netMask).toNat = 32 - itor.netMask.toNat := by
    rw [BitVec.toNat_sub_of_le (BitVec.le_def.mpr (by omega)), hthirtytwo]
  have hlt : (32 : U32) - itor.netMask < 32 := by
    rw [BitVec.lt_def, hamount, hthirtytwo]
    omega
  have hpow : 2 ^ (32 - itor.netMask.toNat) < 2 ^ 32 := Nat.pow_lt_pow_right (by decide) (by omega)
  have hpos : 0 < 2 ^ (32 - itor.netMask.toNat) := Nat.pow_pos (by decide)
  have hshl : (pf.shl1 (32 - itor.netMask)).toNat = 2 ^ (32 - itor.netMask.toNat) := by
    rw [Platform.shl1, if_pos hlt, BitVec.shiftLeft_eq', hamount, BitVec.toNat_shiftLeft,
      Nat.shiftLeft_eq, Nat.mod_eq_of_lt]
    · exact Nat.one_mul _
    · exact (Nat.one_mul _).trans_lt hpow
  have hone : (1 : U32).toNat = 1 := rfl
  have hcount : (pf.shl1 (32 - itor.netMask) - 1).toNat = 2 ^ (32 - itor.netMask.toNat) - 1 := by
    rw [BitVec.toNat_sub_of_le (BitVec.le_def.mpr (by omega)), hshl, hone]
  show (lowOf itor.subNet + (pf.shl1 (32 - itor.netMask) - 1)).toNat = _
  rw [BitVec.toNat_add, hcount]

theorem range_of_netFits (pf : Platform) {itor : NodeInfo} (hshift : Shiftable itor.netMask)
    (hfits : NetFits itor.subNet itor.netMask) :
    (meshNode pf itor).nodeSubnetIPLow ≤ (meshNode pf itor).nodeSubnetIPHigh := by
  have hhigh := meshNode_high pf hshift
  have hpos : 0 < 2 ^ (32 - itor.netMask.toNat) := Nat.pow_pos (by decide)
  unfold NetFits at hfits
  rw [Nat.mod_eq_of_lt (by omega)] at hhigh
  rw [BitVec.le_def, hhigh]
  show (lowOf itor.subNet).toNat ≤ _
  omega

/-! ## A mesh notify -/

/-- After a mesh notify: the masks of all entries and the counts of the copied
ones are defined, the counts fit, and the stored ranges are in order. -/
structure MaskDefined (list : NodeInfoList) (s : Server) : Prop where
  masks : ∀ info ∈ list.cpeList, (meshMask? info).isSome
  counts : ∀ itor ∈ s.config.nodeInfoList, CountFits itor
  ranges : ∀ node ∈ s.cpes, node.nodeSubnetIPLow ≤ node.nodeSubnetIPHigh

theorem countFits_meshInfos_iff (list : NodeInfoList) :
    (∀ itor ∈ meshInfos list, CountFits itor) ↔
      ∀ info ∈ keptInfos list,
        Shiftable info.netMask ∧ NetFits info.subnetIpStart info.netMask := by
  simp only [meshInfos, List.forall_mem_map, countFits_iff]
  exact Iff.rfl

/-- **The mask arithmetic of a mesh list is defined** exactly if every length is
between 2 and 32 and every kept network ends in the address space. -/
theorem mask_defined_iff (pf : Platform) (s : Server) (cpesInfo : Bytes) (list : NodeInfoList)
    (haccepted : Accepts pf cpesInfo list) :
    MaskDefined list (s.handleMeshNotify pf cpesInfo) ↔
      (∀ info ∈ list.cpeList, Shiftable info.netMask) ∧
        ∀ info ∈ keptInfos list, NetFits info.subnetIpStart info.netMask := by
  rw [handleMeshNotify_accepted haccepted]
  constructor
  · intro h
    refine ⟨?_, ?_⟩
    · intro info hinfo
      exact (meshMask?_isSome_iff info).mp (h.masks info hinfo)
    · intro info hinfo
      exact ((countFits_meshInfos_iff list).mp h.counts info hinfo).2
  · intro h
    obtain ⟨hshift, hfits⟩ := h
    have hkept : ∀ info ∈ keptInfos list, Shiftable info.netMask := by
      intro info hinfo
      exact hshift info (List.mem_filter.mp hinfo).1
    refine ⟨?_, ?_, ?_⟩
    · intro info hinfo
      exact (meshMask?_isSome_iff info).mpr (hshift info hinfo)
    · refine (countFits_meshInfos_iff list).mpr fun info hinfo => ?_
      exact ⟨hkept info hinfo, hfits info hinfo⟩
    · show ∀ node ∈ meshTable pf list, _
      rw [meshTable_eq]
      intro node hnode
      obtain ⟨info, hinfo, rfl⟩ := List.mem_map.mp hnode
      exact range_of_netFits pf (hkept info hinfo) (hfits info hinfo)

/-! ## An absent length -/

/-- A list of one peer with the network 10.0.0.0 and a length. -/
def peerNet (netMask : U32) : NodeInfoList :=
  ⟨[{ nodeId := 2, virtualIp := str "10.0.0.2", subnetIpStart := str "10.0.0.0",
      netMask := netMask }]⟩

/-- Without the field the length is 0, and 1 is shifted by 32. -/
theorem absent_length_undefined :
    ¬ MaskDefined (peerNet 0)
      ((started ⟨wire, id⟩ 3 1 {} 9).handleMeshNotify ⟨wire, id⟩ (peerNet 0).serialize) := by
  intro h
  exact absurd (h.masks _ (List.mem_singleton.mpr rfl)) (by decide)

theorem length_24_defined :
    MaskDefined (peerNet 24)
      ((started ⟨wire, id⟩ 3 1 {} 9).handleMeshNotify ⟨wire, id⟩ (peerNet 24).serialize) := by
  have haccepted : Accepts ⟨wire, id⟩ (peerNet 24).serialize (peerNet 24) :=
    ⟨by decide +kernel, nodeInfoList_parse (by decide +kernel)⟩
  refine (mask_defined_iff ⟨wire, id⟩ (started ⟨wire, id⟩ 3 1 {} 9) (peerNet 24).serialize
    (peerNet 24) haccepted).mpr ⟨?_, ?_⟩
  · decide
  · decide +kernel

end Cpe.Proofs.MaskArithmetic
