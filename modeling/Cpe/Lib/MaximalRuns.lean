import Mathlib.Data.List.TakeWhile
import Mathlib.Order.Interval.Basic
import Mathlib.Order.Minimal

/-! # Maximal stretches

A stretch of a list is an interval of places, ordered by inclusion. The maximal
ones without a separator are found from left to right: skip the separators, go
on to the next one, and continue behind it. -/
namespace Cpe.Lib.MaximalRuns

/-! ## Intervals of free places -/

section
variable {free : ℕ → Prop} {I : NonemptyInterval ℕ}

/-- All places of the interval are free. -/
def Within (free : ℕ → Prop) (I : NonemptyInterval ℕ) : Prop := ∀ i ∈ I, free i

theorem within_iff : Within free I ↔ ∀ i, I.fst ≤ i → i ≤ I.snd → free i := by
  simp only [Within, NonemptyInterval.mem_def, and_imp]

/-- An interval is maximal if the places on both sides of it are not free. -/
theorem maximal_within_iff : Maximal (Within free) I ↔
    Within free I ∧ (∀ i, i + 1 = I.fst → ¬ free i) ∧ ¬ free (I.snd + 1) := by
  have hle := I.fst_le_snd
  constructor
  · intro h
    have hin := within_iff.mp h.prop
    refine ⟨h.prop, ?_, ?_⟩
    · intro i hi hfree
      let J : NonemptyInterval ℕ := ⟨(i, I.snd), by omega⟩
      have hJ : Within free J := by
        refine within_iff.mpr fun j (hlow : i ≤ j) (hhigh : j ≤ I.snd) => ?_
        rcases Nat.eq_or_lt_of_le hlow with rfl | hlt
        · exact hfree
        · exact hin j (by omega) hhigh
      have hIJ : I ≤ J := NonemptyInterval.le_def.mpr ⟨by change i ≤ I.fst; omega, le_rfl⟩
      obtain ⟨hfst, _⟩ := NonemptyInterval.le_def.mp (h.le_of_ge hJ hIJ)
      have hback : I.fst ≤ i := hfst
      omega
    · intro hfree
      let J : NonemptyInterval ℕ := ⟨(I.fst, I.snd + 1), by omega⟩
      have hJ : Within free J := by
        refine within_iff.mpr fun j (hlow : I.fst ≤ j) (hhigh : j ≤ I.snd + 1) => ?_
        rcases Nat.eq_or_lt_of_le hhigh with rfl | hlt
        · exact hfree
        · exact hin j hlow (by omega)
      have hIJ : I ≤ J := NonemptyInterval.le_def.mpr ⟨le_rfl, Nat.le_succ I.snd⟩
      obtain ⟨_, hsnd⟩ := NonemptyInterval.le_def.mp (h.le_of_ge hJ hIJ)
      exact absurd hsnd (Nat.not_succ_le_self I.snd)
  · rintro ⟨hin, hleft, hright⟩
    refine ⟨hin, fun J hJ hIJ => ?_⟩
    obtain ⟨hfst, hsnd⟩ := NonemptyInterval.le_def.mp hIJ
    have hJin := within_iff.mp hJ
    refine NonemptyInterval.le_def.mpr ⟨?_, ?_⟩
    · by_contra hlt
      exact hleft (I.fst - 1) (by omega) (hJin _ (by omega) (by omega))
    · by_contra hlt
      exact hright (hJin _ (by omega) (by omega))

/-- From a place behind one that is not free, with only such places up to `a`
and free ones up to `b`: the first maximal interval is that from `a` to `b`,
the others come behind the place that follows it. -/
theorem maximal_from_iff {k a b : ℕ} (hka : k ≤ a) (hab : a ≤ b)
    (hbefore : ∀ i, i + 1 = k → ¬ free i) (hskip : ∀ i, k ≤ i → i < a → ¬ free i)
    (hrun : ∀ i, a ≤ i → i ≤ b → free i) (hend : ¬ free (b + 1)) :
    Maximal (Within free) I ∧ k ≤ I.fst ↔
      I = ⟨(a, b), hab⟩ ∨ Maximal (Within free) I ∧ b + 2 ≤ I.fst := by
  constructor
  · rintro ⟨hmax, hk⟩
    obtain ⟨hin, hleft, hright⟩ := maximal_within_iff.mp hmax
    have hle := I.fst_le_snd
    have hfree := within_iff.mp hin
    by_cases hbehind : b + 2 ≤ I.fst
    · exact .inr ⟨hmax, hbehind⟩
    · have hend' : I.fst ≠ b + 1 := fun he => hend (he ▸ hfree I.fst le_rfl hle)
      have hskip' : ¬ I.fst < a := fun hlt => hskip I.fst hk hlt (hfree I.fst le_rfl hle)
      have hfst : I.fst = a := by
        by_contra hne
        exact hleft (I.fst - 1) (by omega) (hrun _ (by omega) (by omega))
      have hlow : ¬ b < I.snd := fun hlt => hend (hfree (b + 1) (by omega) (by omega))
      have hhigh : ¬ I.snd < b := fun hlt => hright (hrun _ (by omega) (by omega))
      have hsnd : I.snd = b := by omega
      exact .inl (NonemptyInterval.ext (Prod.ext hfst hsnd))
  · rintro (rfl | ⟨hmax, hbehind⟩)
    · refine ⟨maximal_within_iff.mpr ⟨within_iff.mpr hrun, fun i hi => ?_, hend⟩, hka⟩
      have hi' : i + 1 = a := hi
      by_cases hki : k ≤ i
      · exact hskip i hki (by omega)
      · exact hbefore i (by omega)
    · exact ⟨hmax, by omega⟩

end

/-! ## Stretches of a list -/

section
variable {α : Type*} {sep : α → Prop} {xs : List α}

/-- There is an element at the place, and it is no separator. -/
def FreeAt (sep : α → Prop) (xs : List α) (i : ℕ) : Prop := ∃ x, xs[i]? = some x ∧ ¬ sep x

def text (xs : List α) (I : NonemptyInterval ℕ) : List α :=
  (xs.drop I.fst).take (I.snd + 1 - I.fst)

/-- The maximal stretches of `xs` without a separator from place `k` on, in
order. -/
structure Runs (sep : α → Prop) (xs : List α) (k : ℕ) (runs : List (NonemptyInterval ℕ)) :
    Prop where
  ordered : runs.Pairwise fun I J => I.snd < J.fst
  mem_iff : ∀ I, I ∈ runs ↔ Maximal (Within (FreeAt sep xs)) I ∧ k ≤ I.fst

theorem Runs.nil {k : ℕ} (h : ∀ i, k ≤ i → ¬ FreeAt sep xs i) : Runs sep xs k [] := by
  refine ⟨.nil, fun I => ⟨fun hmem => absurd hmem List.not_mem_nil, ?_⟩⟩
  rintro ⟨hmax, hk⟩
  exact absurd (within_iff.mp hmax.prop I.fst le_rfl I.fst_le_snd) (h I.fst hk)

/-- One more stretch in front. -/
theorem Runs.cons {k a b : ℕ} {runs : List (NonemptyInterval ℕ)} (hka : k ≤ a) (hab : a ≤ b)
    (hbefore : ∀ i, i + 1 = k → ¬ FreeAt sep xs i)
    (hskip : ∀ i, k ≤ i → i < a → ¬ FreeAt sep xs i)
    (hrun : ∀ i, a ≤ i → i ≤ b → FreeAt sep xs i) (hend : ¬ FreeAt sep xs (b + 1))
    (h : Runs sep xs (b + 2) runs) : Runs sep xs k (⟨(a, b), hab⟩ :: runs) := by
  refine ⟨List.pairwise_cons.mpr ⟨fun J hJ => ?_, h.ordered⟩, fun I => ?_⟩
  · have hbehind := ((h.mem_iff J).mp hJ).2
    change b < J.fst
    omega
  · rw [List.mem_cons, h.mem_iff, maximal_from_iff hka hab hbefore hskip hrun hend]

/-! ## Places of a prefix -/

variable {q : α → Bool} {k : ℕ}

theorem dropWhile_drop (q : α → Bool) (xs : List α) (k : ℕ) :
    (xs.drop k).dropWhile q = xs.drop (k + ((xs.drop k).takeWhile q).length) := by
  rw [← List.drop_drop]
  generalize xs.drop k = ys
  calc ys.dropWhile q
      = (ys.takeWhile q ++ ys.dropWhile q).drop (ys.takeWhile q).length := List.drop_left.symm
    _ = ys.drop (ys.takeWhile q).length := by rw [List.takeWhile_append_dropWhile]

theorem getElem?_of_lt_takeWhile {i : ℕ} (hi : k ≤ i)
    (hlt : i < k + ((xs.drop k).takeWhile q).length) : ∃ x, xs[i]? = some x ∧ q x = true := by
  have hin : i - k < ((xs.drop k).takeWhile q).length := by omega
  have hfront : (xs.drop k).takeWhile q <+: xs.drop k := List.takeWhile_prefix q
  have hread : (xs.drop k)[i - k]? = some ((xs.drop k).takeWhile q)[i - k] := by
    rw [hfront.getElem hin, List.getElem?_eq_getElem]
  rw [List.getElem?_drop, Nat.add_sub_cancel' hi] at hread
  exact ⟨_, hread, List.mem_takeWhile_imp (List.getElem_mem hin)⟩

/-- A prefix stops at an element outside its predicate. -/
theorem of_getElem?_takeWhile {x : α}
    (h : xs[k + ((xs.drop k).takeWhile q).length]? = some x) : q x = false := by
  have hhead : ((xs.drop k).dropWhile q).head? = some x := by
    rw [dropWhile_drop, List.head?_drop]
    exact h
  have hne : (xs.drop k).dropWhile q ≠ [] := by
    intro hnil
    rw [hnil] at hhead
    cases hhead
  have hfalse := List.head_dropWhile_not q hne
  rw [List.head?_eq_some_head hne] at hhead
  rwa [Option.some.inj hhead] at hfalse

end

end Cpe.Lib.MaximalRuns
