import Cpe.Lib.CString
import Cpe.Lib.MaximalRuns

/-! # The tokens of a text

`strtok` finds the first maximal stretch without a delimiter behind its cursor
and leaves the cursor behind the delimiter that ends it, so that repeated calls
find all of them. -/
namespace Cpe.Lib.Tokens
open Cpe.Lib.ByteOrder Cpe.Lib.CString Cpe.Lib.MaximalRuns

variable {s delim : Bytes} {k : ℕ}

/-- Only delimiters are left behind the cursor. -/
theorem not_freeAt_of_strtok_none (h : strtok (s.drop k) delim = none) {i : ℕ} (hi : k ≤ i) :
    ¬ FreeAt (· ∈ delim) s i := by
  rintro ⟨x, hx, hfree⟩
  unfold strtok at h
  simp only [ite_eq_left_iff, reduceCtorEq, imp_false, Decidable.not_not] at h
  have hall := List.dropWhile_eq_nil_iff.mp h
  have hmem : x ∈ s.drop k := by
    refine List.mem_iff_getElem?.mpr ⟨i - k, ?_⟩
    rw [List.getElem?_drop, Nat.add_sub_cancel' hi]
    exact hx
  exact hfree (by simpa using hall x hmem)

/-- A token is the text from `a` to `b`, with delimiters in front of it and one
or the end of the text behind it, where the cursor goes. -/
theorem strtok_places {tok rest : Bytes} (h : strtok (s.drop k) delim = some (tok, rest)) :
    ∃ (a b : ℕ) (hab : a ≤ b), k ≤ a ∧ (∀ i, k ≤ i → i < a → ¬ FreeAt (· ∈ delim) s i) ∧
      (∀ i, a ≤ i → i ≤ b → FreeAt (· ∈ delim) s i) ∧ ¬ FreeAt (· ∈ delim) s (b + 1) ∧
      tok = text s ⟨(a, b), hab⟩ ∧ rest = s.drop (b + 2) := by
  -- the places of the skipped delimiters
  have hskip : ∀ i, k ≤ i → i < k + ((s.drop k).takeWhile (· ∈ delim)).length →
      ¬ FreeAt (· ∈ delim) s i := by
    rintro i hi hlt ⟨x, hx, hfree⟩
    obtain ⟨y, hy, hdelim⟩ := getElem?_of_lt_takeWhile hi hlt
    rw [hx] at hy
    cases hy
    exact hfree (by simpa using hdelim)
  unfold strtok at h
  simp only [dropWhile_drop] at h
  generalize ha : k + ((s.drop k).takeWhile (· ∈ delim)).length = a at h hskip
  by_cases hnil : s.drop a = []
  · rw [if_pos hnil] at h
    cases h
  · rw [if_neg hnil] at h
    obtain ⟨htok, hrest⟩ := Prod.mk.inj (Option.some.inj h)
    -- the first byte that is left is no delimiter
    have hpos : 0 < tok.length := by
      obtain ⟨x, xs, hx⟩ := List.exists_cons_of_ne_nil hnil
      have hread : s[a]? = some x := by
        rw [← List.head?_drop, hx]
        rfl
      rw [← ha] at hread
      have hfree := of_getElem?_takeWhile hread
      rw [← htok, hx, List.takeWhile_cons_of_pos (by simpa using hfree), List.length_cons]
      exact Nat.succ_pos _
    have hrun : ∀ i, a ≤ i → i < a + tok.length → FreeAt (· ∈ delim) s i := by
      intro i hi hlt
      rw [← htok] at hlt
      obtain ⟨x, hx, hfree⟩ := getElem?_of_lt_takeWhile hi hlt
      exact ⟨x, hx, by simpa using hfree⟩
    have hend : ¬ FreeAt (· ∈ delim) s (a + tok.length) := by
      rintro ⟨x, hx, hfree⟩
      rw [← htok] at hx
      have hdelim := of_getElem?_takeWhile hx
      exact hfree (by simpa using hdelim)
    have hlast : a + tok.length - 1 + 1 = a + tok.length := by omega
    refine ⟨a, a + tok.length - 1, by omega, by omega, hskip, fun i hi hlt => hrun i hi (by omega),
      by rwa [hlast], ?_, ?_⟩
    · have hlen : a + tok.length - 1 + 1 - a = tok.length := by omega
      change tok = (s.drop a).take (a + tok.length - 1 + 1 - a)
      have hfront : tok <+: s.drop a := htok ▸ List.takeWhile_prefix _
      rw [hlen]
      exact List.prefix_iff_eq_take.mp hfront
    · rw [← hrest, htok, List.drop_drop]
      congr 1
      omega

/-- **Repeated calls find the maximal stretches without a delimiter** behind the
cursor, and find them in order. -/
theorem strtoks_runs (delim s : Bytes) (fuel k : ℕ) (hfuel : (s.drop k).length ≤ fuel)
    (hbefore : ∀ i, i + 1 = k → ¬ FreeAt (· ∈ delim) s i) :
    ∃ runs, Runs (· ∈ delim) s k runs ∧ strtoks fuel (s.drop k) delim = runs.map (text s) := by
  induction fuel generalizing k with
  | zero =>
    refine ⟨[], Runs.nil ?_, rfl⟩
    rintro i hi ⟨x, hx, -⟩
    have hlt := (List.getElem?_eq_some_iff.mp hx).1
    rw [List.length_drop] at hfuel
    omega
  | succ fuel ih =>
    cases htok : strtok (s.drop k) delim with
    | none =>
      refine ⟨[], Runs.nil fun i hi => not_freeAt_of_strtok_none htok hi, ?_⟩
      rw [strtoks, htok]
      rfl
    | some next =>
      obtain ⟨tok, rest⟩ := next
      obtain ⟨a, b, hab, hka, hskip, hrun, hend, htext, hrest⟩ := strtok_places htok
      obtain ⟨_, hshorter⟩ := pieces_of_strtok_some htok
      have hnext : ∀ i, i + 1 = b + 2 → ¬ FreeAt (· ∈ delim) s i := by
        intro i hi
        obtain rfl : i = b + 1 := by omega
        exact hend
      rw [hrest] at hshorter
      obtain ⟨runs, hruns, hmap⟩ := ih (b + 2) (by omega) hnext
      refine ⟨_, hruns.cons hka hab hbefore hskip hrun hend, ?_⟩
      rw [strtoks, htok, List.map_cons, ← htext, hrest]
      exact congrArg (tok :: ·) hmap

/-- A text without a delimiter is its only piece. -/
theorem pieces_of_free {t : Bytes} (hne : t ≠ []) (h : ∀ b ∈ t, b ∉ delim) :
    pieces delim t = [t] := by
  have hsplit : t.splitOnP (· ∈ delim) = [t] :=
    List.splitOnP_eq_singleton fun b hb => by simpa using h b hb
  rw [pieces, hsplit]
  simp [hne]

/-- The pieces are not empty and hold no delimiter. -/
theorem of_mem_pieces {t : Bytes} (h : t ∈ pieces delim s) :
    t ≠ [] ∧ (∀ b ∈ t, b ∉ delim) ∧ ∀ b ∈ t, b ∈ s := by
  obtain ⟨runs, hruns, hmap⟩ := strtoks_runs delim s s.length 0 (by simp) (by simp)
  rw [List.drop_zero, strtoks_eq _ _ _ le_rfl] at hmap
  rw [hmap] at h
  obtain ⟨I, hI, rfl⟩ := List.mem_map.mp h
  obtain ⟨hmax, -⟩ := (hruns.mem_iff I).mp hI
  have hfree := within_iff.mp hmax.prop
  have hle := I.fst_le_snd
  obtain ⟨x, hx, -⟩ := hfree I.snd hle le_rfl
  have hlt := (List.getElem?_eq_some_iff.mp hx).1
  refine ⟨?_, fun b hb => ?_, fun b hb => List.mem_of_mem_drop (List.mem_of_mem_take hb)⟩
  · apply List.ne_nil_of_length_pos
    rw [text, List.length_take, List.length_drop]
    omega
  · obtain ⟨i, hi, rfl⟩ := List.mem_iff_getElem.mp hb
    have hlen : i < I.snd + 1 - I.fst := by
      rw [text, List.length_take] at hi
      omega
    obtain ⟨y, hy, hdelim⟩ := hfree (I.fst + i) (by omega) (by omega)
    have hread : (text s I)[i]? = some y := by
      rw [text, List.getElem?_take, if_pos hlen, List.getElem?_drop]
      exact hy
    rw [List.getElem?_eq_getElem hi] at hread
    rwa [Option.some.inj hread]

end Cpe.Lib.Tokens
