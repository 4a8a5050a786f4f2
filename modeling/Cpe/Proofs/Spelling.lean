import Cpe.Main.Runs
import Cpe.Main.Subnets
import Mathlib.Data.List.Find

/-! # Spellings of a prefix

An entry `a.b.c.d/n` of a subnet list is compared with a masked address as it
stands, so an entry with host bits is no spelling of its prefix: it matches
nothing. Nowhere is a network masked before it is used. -/
namespace Cpe.Proofs.Spelling
open Cpe.Lib.ByteOrder Cpe.Lib.CString Cpe.Lib.BitPrefix Cpe.Lib.MemoTable Cpe.Main

/-- A place for one entry in a subnet list: the text in front of it and the text
behind it, with their commas. -/
structure Slot where
  before : Bytes
  after : Bytes
  opens : before = [] ∨ ∃ text, before = text ++ str ","
  closes : after = [] ∨ ∃ text, after = str "," ++ text

def Slot.fill (slot : Slot) (entry : Bytes) : Bytes := slot.before ++ (entry ++ slot.after)

/-- Bits outside the prefix. -/
def HostBits (x : U32) (n : Nat) : Prop := x &&& ~~~mask 32 n ≠ 0

instance (x : U32) (n : Nat) : Decidable (HostBits x n) := inferInstanceAs (Decidable (_ ≠ _))

def SamePrefix (n : Nat) (x y : U32) : Prop := x &&& mask 32 n = y &&& mask 32 n

instance (n : Nat) (x y : U32) : Decidable (SamePrefix n x y) := inferInstanceAs (Decidable (_ = _))

/-- A state with a node in its table that has this subnet list. -/
def listing (s : Server) (pre : List CpeNode) (node : CpeNode) (post : List CpeNode)
    (subnet : Bytes) : Server :=
  { s with cpes := pre ++ { node with nodeSubnet := subnet } :: post }

/-- Some prefix of the list contains the address. -/
def Listed (subnet : Bytes) (ip : U32) : Prop := ∃ p ∈ prefixesOf subnet, p.Contains ip

/-- Texts that are an item of their own between commas. -/
def Item (entry : Bytes) : Prop := 44#8 ∉ entry ∧ 0#8 ∉ entry

theorem item_nil : Item [] := ⟨List.not_mem_nil, List.not_mem_nil⟩

/-! ## Lists around an entry -/

/-- Text behind a comma is read on its own, unless a NUL stands before it. -/
theorem prefixesOf_append (xs ys : Bytes) :
    prefixesOf (xs ++ str "," ++ ys) =
      prefixesOf xs ++ if 0#8 ∈ xs then [] else prefixesOf ys := by
  have hcomma : str "," = [44#8] := by decide
  have hnul : 0#8 ∉ [44#8] := by decide
  unfold prefixesOf
  rw [hcomma, split_eq, split_eq, split_eq, cstr_eq_self hnul, List.append_assoc,
    List.singleton_append]
  by_cases h : 0#8 ∈ xs
  · rw [cstr_append_of_mem h, if_pos h, List.append_nil]
  · have htail : cstr (44#8 :: ys) = 44#8 :: cstr ys := rfl
    rw [cstr_append_of_not_mem h, cstr_eq_self h, htail, pieces_append, List.filterMap_append,
      if_neg h]

section
variable {slot : Slot} {entry entry' : Bytes} {ip : U32}

theorem listed_append (xs ys : Bytes) :
    Listed (xs ++ str "," ++ ys) ip ↔ Listed xs ip ∨ 0#8 ∉ xs ∧ Listed ys ip := by
  unfold Listed
  rw [prefixesOf_append]
  by_cases h : 0#8 ∈ xs
  · simp [h]
  · simp [h, or_and_right, exists_or]

/-- Entries that contain an address together can replace each other in a list. -/
theorem listed_fill_congr (hentry : Item entry) (hentry' : Item entry')
    (h : Listed entry ip ↔ Listed entry' ip) :
    Listed (slot.fill entry) ip ↔ Listed (slot.fill entry') ip := by
  have hback : Listed (entry ++ slot.after) ip ↔ Listed (entry' ++ slot.after) ip := by
    rcases slot.closes with hafter | ⟨text, hafter⟩
    · rw [hafter, List.append_nil, List.append_nil]
      exact h
    · rw [hafter, ← List.append_assoc, ← List.append_assoc, listed_append, listed_append, h]
      simp [hentry.2, hentry'.2]
  rcases slot.opens with hbefore | ⟨text, hbefore⟩
  · rw [Slot.fill, Slot.fill, hbefore]
    exact hback
  · rw [Slot.fill, Slot.fill, hbefore, listed_append, listed_append, hback]

/-- An entry contains the addresses that are its address when masked. -/
theorem listed_entryText {x : U32} {n : Nat} (hn : n ≤ 32) :
    Listed (entryText x n) ip ↔ ip &&& mask 32 n = x := by
  have hfree : ∀ t ∈ [entryText x n], 44#8 ∉ t ∧ 0#8 ∉ t := by
    intro t ht
    rw [List.mem_singleton.mp ht]
    exact entryText_free x n
  have hne : entryText x n ≠ [] := by
    intro h
    exact valueToIP_ne_nil x (List.append_eq_nil_iff.mp (List.append_eq_nil_iff.mp h).1).1
  have hsplit : split (entryText x n) (str ",") = [entryText x n] := by
    have hone := split_intercalate (show (44#8 : Byte) ≠ 0 by decide) hfree
    have hjoin : [44#8].intercalate [entryText x n] = entryText x n := by simp [List.intercalate]
    have hkeep : [entryText x n].filter (· ≠ []) = [entryText x n] := by simp [hne]
    rw [hjoin, hkeep] at hone
    exact hone
  have hmem : ∀ p, p ∈ prefixesOf (entryText x n) ↔ prefixOf (entryText x n) = some p := by
    intro p
    rw [prefixesOf, hsplit]
    simp
  rw [and_mask_eq_iff hn ip x, ← prefixOf_entryText x hn]
  exact exists_congr fun p => and_congr_left fun _ => hmem p

theorem not_listed_nil : ¬ Listed [] ip := by
  intro h
  obtain ⟨p, hp, _⟩ := h
  rw [prefixesOf_nil] at hp
  cases hp

/-! ## Spellings -/

variable {x y : U32} {n : Nat}

theorem not_hostBits_iff : ¬ HostBits x n ↔ x &&& mask 32 n = x := by
  rw [HostBits, not_not]
  exact and_not_eq_zero_iff x (mask 32 n)

/-- A masked address has no host bits, and it has the top bits of the entry. -/
theorem masked_eq (h : ip &&& mask 32 n = x) : ¬ HostBits x n ∧ SamePrefix n ip x := by
  have hmask : x &&& mask 32 n = x := by rw [← h, and_mask_and_mask (Nat.le_refl n)]
  refine ⟨not_hostBits_iff.mpr hmask, ?_⟩
  rw [SamePrefix, hmask, h]

/-- Two spellings match the same addresses, inside the prefix when both have
host bits or neither has. -/
theorem masked_iff (hsame : SamePrefix n x y)
    (h : (HostBits x n ↔ HostBits y n) ∨ ¬ SamePrefix n ip x) :
    ip &&& mask 32 n = x ↔ ip &&& mask 32 n = y := by
  rcases h with hspelt | hout
  · by_cases hx : HostBits x n
    · have hy := hspelt.mp hx
      exact ⟨fun hm => absurd hx (masked_eq hm).1, fun hm => absurd hy (masked_eq hm).1⟩
    · have hy := fun hy => hx (hspelt.mpr hy)
      have hxy : x = y := calc
        x = x &&& mask 32 n := (not_hostBits_iff.mp hx).symm
        _ = y &&& mask 32 n := hsame
        _ = y := not_hostBits_iff.mp hy
      rw [hxy]
  · have hout' : ¬ SamePrefix n ip y := fun hin => hout (hin.trans hsame.symm)
    exact ⟨fun hm => absurd (masked_eq hm).2 hout, fun hm => absurd (masked_eq hm).2 hout'⟩

end

theorem uncached_eq_scan (s : Server) (ip : U32) (mac : Bytes) :
    s.uncached ip mac =
      if s.config.onlyAcc = 1 then s.gatewayId else s.scanCpes ip mac s.cpes := by
  rw [← scanCpes_forget]
  rfl

/-- The scan stops at nodes with one id when one node is replaced by another
that it stops at alike. -/
theorem hit_replace {s : Server} {ip : U32} {mac : Bytes} {node node' : CpeNode}
    (pre post : List CpeNode) (hid : node.nodeID = node'.nodeID)
    (h : s.Hits ip mac node ↔ s.Hits ip mac node') :
    (s.hit ip mac (pre ++ node :: post)).map CpeNode.nodeID =
      (s.hit ip mac (pre ++ node' :: post)).map CpeNode.nodeID := by
  unfold Server.hit
  rw [List.find?_append, List.find?_append, List.find?_cons, List.find?_cons]
  by_cases hnode : s.Hits ip mac node
  · have hnode' := h.mp hnode
    cases pre.find? fun node => s.Hits ip mac node with
    | none => simp [hnode, hnode', hid]
    | some found => rfl
  · have hnode' : ¬ s.Hits ip mac node' := fun hnode' => hnode (h.mpr hnode')
    simp [hnode, hnode']

/-- A lookup sees of a subnet list only whether it contains the address. -/
theorem uncached_listing_congr (s : Server) (pre : List CpeNode) (node : CpeNode)
    (post : List CpeNode) {subnet subnet' : Bytes} {ip : U32} (mac : Bytes)
    (h : Listed subnet ip ↔ Listed subnet' ip) :
    (listing s pre node post subnet).uncached ip mac =
      (listing s pre node post subnet').uncached ip mac := by
  have hhits : s.Hits ip mac { node with nodeSubnet := subnet } ↔
      s.Hits ip mac { node with nodeSubnet := subnet' } := by
    unfold Server.Hits CpeNode.Covers
    rw [← Listed, ← Listed, h]
  have hscan : (listing s pre node post subnet).scanCpes ip mac
        (listing s pre node post subnet).cpes =
      (listing s pre node post subnet').scanCpes ip mac
        (listing s pre node post subnet').cpes := by
    have hid : ({ node with nodeSubnet := subnet } : CpeNode).nodeID =
      ({ node with nodeSubnet := subnet' } : CpeNode).nodeID := rfl
    have hhit := hit_replace pre post hid hhits
    rw [scanCpes_eq, scanCpes_eq]
    exact congrArg (fun id => id.getD s.fallback) hhit
  rw [uncached_eq_scan, uncached_eq_scan, hscan]
  rfl

/-- **Two spellings of one prefix** give the same results when both have host
bits or neither has, and outside the prefix always; an entry with host bits
counts as no entry. -/
theorem spellings_interchangeable (s : Server) (pre : List CpeNode) (node : CpeNode)
    (post : List CpeNode) (slot : Slot) (n : Nat) (hn : n ≤ 32) (x y : U32)
    (hsame : SamePrefix n x y) (ip : U32) (mac : Bytes) :
    ((HostBits x n ↔ HostBits y n) ∨ ¬ SamePrefix n ip x →
      (listing s pre node post (slot.fill (entryText x n))).uncached ip mac =
        (listing s pre node post (slot.fill (entryText y n))).uncached ip mac) ∧
    (HostBits x n →
      (listing s pre node post (slot.fill (entryText x n))).uncached ip mac =
        (listing s pre node post (slot.fill [])).uncached ip mac) := by
  refine ⟨?_, ?_⟩
  · intro h
    apply uncached_listing_congr
    apply listed_fill_congr (entryText_free x n) (entryText_free y n)
    rw [listed_entryText hn, listed_entryText hn]
    exact masked_iff hsame h
  · intro hx
    apply uncached_listing_congr
    apply listed_fill_congr (entryText_free x n) item_nil
    rw [listed_entryText hn]
    exact ⟨fun hm => absurd hx (masked_eq hm).1, fun hnil => absurd hnil not_listed_nil⟩

/-! ## 192.168.1.5/24 -/

/-- A list of one entry. -/
def onlyEntry : Slot := ⟨[], [], .inl rfl, .inl rfl⟩

def printerNode : CpeNode where
  nodeID := 2
  nodeVirtualIP := 0x0a000002
  nodeSubnetIPLow := 0
  nodeSubnetIPHigh := 0
  nodeSubnet := []
  nodeMacAddr := []

/-- A table with one peer and one entry in its list. -/
def homeServer (x : U32) : Server :=
  listing (started ⟨Cpe.Pro.wire, id⟩ 3 7 {} 9) [] printerNode [] (onlyEntry.fill (entryText x 24))

/-- 192.168.1.9 goes to the peer for 192.168.1.0/24, and to the gateway for
192.168.1.5/24. -/
theorem host_bits_lose_the_prefix :
    SamePrefix 24 0xc0a80100 0xc0a80105 ∧
      ¬ (homeServer 0xc0a80100).uncached 0xc0a80109 defaultMac =
        (homeServer 0xc0a80105).uncached 0xc0a80109 defaultMac := by
  decide +kernel

/-- With host bits, 192.168.1.5/24 and 192.168.1.6/24 are as good as no entry. -/
theorem both_with_host_bits :
    (homeServer 0xc0a80105).uncached 0xc0a80109 defaultMac =
        (homeServer 0xc0a80106).uncached 0xc0a80109 defaultMac ∧
      (homeServer 0xc0a80105).uncached 0xc0a80109 defaultMac =
        (listing (started ⟨Cpe.Pro.wire, id⟩ 3 7 {} 9) [] printerNode []
          (onlyEntry.fill [])).uncached 0xc0a80109 defaultMac := by
  have h := spellings_interchangeable (started ⟨Cpe.Pro.wire, id⟩ 3 7 {} 9) [] printerNode []
    onlyEntry 24 (by decide) 0xc0a80105 0xc0a80106 (by decide) 0xc0a80109 defaultMac
  exact ⟨h.1 (.inl (by decide)), h.2 (by decide)⟩

end Cpe.Proofs.Spelling
