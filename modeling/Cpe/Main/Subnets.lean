import Cpe.Main.Lookup
import Mathlib.Data.List.ReduceOption

/-! # Subnet texts

The text `a.b.c.d/n` of an address and a length, and the comma-separated list
of a node. The loops that read such a list find exactly the prefixes it spells,
an entry with host bits being none. -/
namespace Cpe.Main
open Cpe.Lib.ByteOrder Cpe.Lib.CString Cpe.Lib.InetAddr Cpe.Lib.BitPrefix Cpe.Lib.Number
open Cpe.Lib.FirstMatch

def prefixText (p : Prefix 32) : Bytes := valueToIP p.net ++ str "/" ++ decimal p.len

def subnetText (ps : List (Prefix 32)) : Bytes := (str ",").intercalate (ps.map prefixText)

/-- One entry of a list, with host bits or without. -/
def entryText (x : U32) (n : Nat) : Bytes := valueToIP x ++ str "/" ++ decimal n

/-- A list with an empty item for each `none`. -/
def cidrText (items : List (Option (Prefix 32))) : Bytes :=
  (str ",").intercalate (items.map fun item => (item.map prefixText).getD [])

/-- The bytes of an address text: digits and dots. -/
def Plain (b : Byte) : Prop := b = 46 ∨ 48 ≤ b ∧ b ≤ 57

theorem plain_decimal {n : Nat} {b : Byte} (h : b ∈ decimal n) : Plain b :=
  .inr ((decimal_digits n).digit b h)

theorem plain_valueToIP {x : U32} {b : Byte} (h : b ∈ valueToIP x) : Plain b := by
  rw [valueToIP_eq, quad_eq] at h
  simp only [List.mem_append, List.mem_cons] at h
  rcases h with h | rfl | h | rfl | h | rfl | h
  · exact plain_decimal h
  · exact .inl rfl
  · exact plain_decimal h
  · exact .inl rfl
  · exact plain_decimal h
  · exact .inl rfl
  · exact plain_decimal h

/-- A byte below the digits that is no dot is not in an address text. -/
theorem not_plain {b : Byte} (hdot : b ≠ 46) (hlt : b < 48) : ¬ Plain b := by
  rintro (h | ⟨h, _⟩)
  · exact hdot h
  · exact absurd hlt (BitVec.not_lt.mpr h)

theorem plain_entryText {x : U32} {n : Nat} {b : Byte} (h : b ∈ entryText x n) :
    Plain b ∨ b = 47 := by
  simp only [entryText, List.mem_append] at h
  rcases h with (h | h) | h
  · exact .inl (plain_valueToIP h)
  · exact .inr (List.mem_singleton.mp h)
  · exact .inl (plain_decimal h)

theorem not_mem_entryText {b : Byte} (hdot : b ≠ 46) (hslash : b ≠ 47) (hlt : b < 48) (x : U32)
    (n : Nat) : b ∉ entryText x n := by
  intro hb
  rcases plain_entryText hb with hb | hb
  · exact not_plain hdot hlt hb
  · exact hslash hb

/-- An entry holds no comma and no NUL. -/
theorem entryText_free (x : U32) (n : Nat) : 44#8 ∉ entryText x n ∧ 0#8 ∉ entryText x n :=
  ⟨not_mem_entryText (by decide) (by decide) (by decide) x n,
    not_mem_entryText (by decide) (by decide) (by decide) x n⟩

theorem prefixText_ne_nil (p : Prefix 32) : prefixText p ≠ [] := by
  have hne := (decimal_digits p.len).nonempty
  intro h
  exact hne (List.append_eq_nil_iff.mp h).2

theorem valueToIP_ne_nil (x : U32) : valueToIP x ≠ [] := by
  have hne := (decimal_digits (byte x 3).toNat).nonempty
  rw [valueToIP_eq, quad_eq]
  intro h
  exact hne (List.append_eq_nil_iff.mp h).1

/-- `split` at one separator gives back the joined texts, but for the empty
ones. -/
theorem split_intercalate {sep : Byte} {ts : List Bytes} (hsep : sep ≠ 0)
    (h : ∀ t ∈ ts, sep ∉ t ∧ 0#8 ∉ t) :
    split ([sep].intercalate ts) [sep] = ts.filter (· ≠ []) := by
  have hnul : 0#8 ∉ [sep].intercalate ts := by
    intro h0
    rcases mem_intercalate h0 with he | ⟨t, ht, hb⟩
    · exact hsep he.symm
    · exact (h t ht).2 hb
  have hsepnul : 0#8 ∉ [sep] := fun h0 => hsep (List.mem_singleton.mp h0).symm
  rw [split_eq, cstr_eq_self hnul, cstr_eq_self hsepnul]
  exact pieces_intercalate sep ts fun t ht => (h t ht).1

theorem split_entryText (x : U32) (n : Nat) :
    split (entryText x n) (str "/") = [valueToIP x, decimal n] := by
  have hplain : ∀ t ∈ [valueToIP x, decimal n], t ≠ [] ∧ ∀ b ∈ t, Plain b := by
    intro t ht
    rcases List.mem_cons.mp ht with rfl | ht
    · exact ⟨valueToIP_ne_nil _, fun b hb => plain_valueToIP hb⟩
    · rw [List.mem_singleton.mp ht]
      exact ⟨(decimal_digits n).nonempty, fun b hb => plain_decimal hb⟩
  have hfree : ∀ t ∈ [valueToIP x, decimal n], 47#8 ∉ t ∧ 0#8 ∉ t := by
    intro t ht
    refine ⟨?_, ?_⟩
    · exact fun hb => not_plain (by decide) (by decide) ((hplain t ht).2 _ hb)
    · exact fun hb => not_plain (by decide) (by decide) ((hplain t ht).2 _ hb)
  have hjoin : entryText x n = [47#8].intercalate [valueToIP x, decimal n] := by
    simp [entryText, List.intercalate, str]
  have hslash : str "/" = [47#8] := by decide
  have hkeep : [valueToIP x, decimal n].filter (· ≠ []) = [valueToIP x, decimal n] := by
    apply List.filter_eq_self.mpr
    intro t ht
    exact decide_eq_true (hplain t ht).1
  rw [hjoin, hslash, split_intercalate (by decide) hfree, hkeep]

/-- An entry denotes its prefix when it has no host bits, else nothing. -/
theorem prefixOf_entryText (x : U32) {n : Nat} (hn : n ≤ 32) :
    prefixOf (entryText x n) = Prefix.of? x n := by
  have hle : ¬ BitVec.ofNat 32 n > 32 := by bv_omega
  have hnat : (BitVec.ofNat 32 n).toNat = n := by
    simp only [BitVec.toNat_ofNat]
    omega
  have hmeta : netMeta (entryText x n) = some (valueToIP x, BitVec.ofNat 32 n) := by
    rw [netMeta, split_entryText]
    simp only [atoi_decimal (show n < 2 ^ 31 by omega), hle, if_false]
  rw [prefixOf, hmeta, Option.bind_some, inetAddr_valueToIP, hnat]

/-- The text of a prefix denotes it. -/
theorem prefixOf_prefixText (p : Prefix 32) : prefixOf (prefixText p) = some p := by
  have hentry : prefixText p = entryText p.net p.len := rfl
  rw [hentry, prefixOf_entryText p.net p.len_le, of?_self]

/-- **Reading a list** gives back the prefixes of its items. -/
theorem prefixesOf_cidrText (items : List (Option (Prefix 32))) :
    prefixesOf (cidrText items) = items.reduceOption := by
  have hfree : ∀ t ∈ items.map (fun item => (item.map prefixText).getD []),
      44#8 ∉ t ∧ 0#8 ∉ t := by
    intro t ht
    obtain ⟨item, _, rfl⟩ := List.mem_map.mp ht
    cases item with
    | none => exact ⟨List.not_mem_nil, List.not_mem_nil⟩
    | some p => exact entryText_free p.net p.len
  have hcomma : str "," = [44#8] := by decide
  rw [prefixesOf, cidrText, hcomma, split_intercalate (by decide) hfree]
  clear hfree
  induction items with
  | nil => rfl
  | cons item items ih =>
    cases item with
    | none => simpa using ih
    | some p => simpa [prefixText_ne_nil, prefixOf_prefixText] using ih

theorem prefixesOf_subnetText (ps : List (Prefix 32)) : prefixesOf (subnetText ps) = ps := by
  have hsome : subnetText ps = cidrText (ps.map some) := by
    rw [subnetText, cidrText, List.map_map]
    rfl
  rw [hsome, prefixesOf_cidrText]
  induction ps with
  | nil => rfl
  | cons p ps ih => simp [List.reduceOption]

end Cpe.Main
