import Mathlib.Data.Set.Finite.Lemmas
import Mathlib.Data.List.Infix

/-! # First match in an ordered table

Peers of an ordered table own sets of addresses, and the first owner of an
address is served. A table built from the front gives every address its final
owner or none. When peers own nets that nest by rank, the first owner has a
most specific net exactly if order and nesting do not conflict. -/
namespace Cpe.Lib.FirstMatch

variable {Peer Addr Net : Type}

/-- `p` is the first peer of the table that owns `a`. -/
def IsFirst (owns : Peer → Set Addr) (table : List Peer) (a : Addr) (p : Peer) : Prop :=
  ∃ pre post, table = pre ++ p :: post ∧ a ∈ owns p ∧ ∀ q ∈ pre, a ∉ owns q

/-- No peer of the table owns `a`. -/
def Unowned (owns : Peer → Set Addr) (table : List Peer) (a : Addr) : Prop :=
  ∀ q ∈ table, a ∉ owns q

section
variable {owns : Peer → Set Addr} {table table' : List Peer} {a : Addr} {p q : Peer}

theorem IsFirst.mem (h : IsFirst owns table a p) : p ∈ table := by
  obtain ⟨pre, post, rfl, _, _⟩ := h
  simp

theorem IsFirst.mem_owns (h : IsFirst owns table a p) : a ∈ owns p := by
  obtain ⟨_, _, _, ha, _⟩ := h
  exact ha

theorem isFirst_cons :
    IsFirst owns (q :: table) a p ↔
      a ∈ owns q ∧ q = p ∨ a ∉ owns q ∧ IsFirst owns table a p := by
  constructor
  · rintro ⟨pre, post, he, ha, hpre⟩
    cases pre with
    | nil =>
      obtain ⟨rfl, _⟩ := List.cons.inj he
      exact .inl ⟨ha, rfl⟩
    | cons x pre =>
      obtain ⟨rfl, ht⟩ := List.cons.inj he
      exact .inr ⟨hpre q (List.mem_cons_self), pre, post, ht, ha,
        fun y hy => hpre y (List.mem_cons_of_mem q hy)⟩
  · rintro (⟨ha, rfl⟩ | ⟨hq, pre, post, rfl, ha, hpre⟩)
    · exact ⟨[], table, rfl, ha, by simp⟩
    · refine ⟨q :: pre, post, rfl, ha, ?_⟩
      intro y hy
      rcases List.mem_cons.mp hy with rfl | hy
      · exact hq
      · exact hpre y hy

/-- A decidable search for the first owner finds it. -/
theorem find?_eq_some_iff_isFirst [∀ p, Decidable (a ∈ owns p)] :
    table.find? (fun q => a ∈ owns q) = some p ↔ IsFirst owns table a p := by
  induction table with
  | nil => simp [IsFirst]
  | cons q table ih =>
    rw [List.find?_cons, isFirst_cons, ← ih]
    by_cases hq : a ∈ owns q <;> simp [hq]

theorem find?_eq_none_iff_unowned [∀ p, Decidable (a ∈ owns p)] :
    table.find? (fun q => a ∈ owns q) = none ↔ Unowned owns table a := by
  simp [Unowned]

/-- **A table under construction.** Its first owner is the one of the
finished table. -/
theorem IsFirst.of_initial (hi : table <+: table') (h : IsFirst owns table a p) :
    IsFirst owns table' a p := by
  obtain ⟨rest, rfl⟩ := hi
  obtain ⟨pre, post, rfl, ha, hpre⟩ := h
  exact ⟨pre, post ++ rest, by simp, ha, hpre⟩

end

/-! ## Nested nets -/

section
variable (mem : Net → Set Addr) (rank : Net → Nat) (nets : Peer → Set Net)

/-- The addresses in a peer's nets. -/
def ownedBy (p : Peer) : Set Addr := {a | ∃ N ∈ nets p, a ∈ mem N}

/-- No net of a later peer lies strictly inside a net of an earlier peer. -/
def SpecificFirst (table : List Peer) : Prop :=
  table.Pairwise fun p q => ∀ N ∈ nets p, ∀ M ∈ nets q, mem M ⊆ mem N → rank M ≤ rank N

variable {mem rank nets} {table : List Peer} {a : Addr} {p : Peer}

/-- **Most specific first.** In a table where no later net lies strictly inside
an earlier one, the first owner of an address has a net of the highest rank
among all nets with that address. -/
theorem IsFirst.most_specific
    (nested : ∀ {N M : Net} {a : Addr}, a ∈ mem N → a ∈ mem M → rank N ≤ rank M → mem M ⊆ mem N)
    (finite : ∀ p, (nets p).Finite) (hs : SpecificFirst mem rank nets table)
    (h : IsFirst (ownedBy mem nets) table a p) :
    ∃ N ∈ nets p, a ∈ mem N ∧ ∀ q ∈ table, ∀ M ∈ nets q, a ∈ mem M → rank M ≤ rank N := by
  obtain ⟨pre, post, rfl, ⟨N₀, hN₀, ha₀⟩, hpre⟩ := h
  have hfin : {N | N ∈ nets p ∧ a ∈ mem N}.Finite := (finite p).subset fun N hN => hN.1
  obtain ⟨N, ⟨hN, ha⟩, hmax⟩ := Set.exists_max_image _ rank hfin ⟨N₀, hN₀, ha₀⟩
  refine ⟨N, hN, ha, ?_⟩
  intro q hq M hM haM
  rcases List.mem_append.mp hq with hq | hq
  · exact absurd ⟨M, hM, haM⟩ (hpre q hq)
  · rcases List.mem_cons.mp hq with rfl | hq
    · exact hmax M ⟨hM, haM⟩
    · have hlater := (List.pairwise_cons.mp (List.pairwise_append.mp hs).2.1).1 q hq
      rcases Nat.le_total (rank M) (rank N) with hle | hle
      · exact hle
      · exact hlater N hN M hM (nested ha haM hle)

end

end Cpe.Lib.FirstMatch
