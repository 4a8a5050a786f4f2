import Cpe.Lib.Tokens
import Cpe.Proofs.SplitRace

/-! # The pieces of `split`

What `split` returns, told without `strtok`: the maximal stretches of the text
that hold no character of the pattern, from left to right. -/
namespace Cpe.Proofs.SplitPieces
open Cpe.Lib.ByteOrder Cpe.Lib.CString Cpe.Lib.MaximalRuns Cpe.Lib.Tokens Cpe.Main
open Cpe.Proofs.SplitRace

variable {s p : Bytes}

/-- The cursor starts in front of the text. -/
theorem split_runs (hs : 0#8 ∉ s) (p : Bytes) :
    ∃ runs, Runs (· ∈ cstr p) s 0 runs ∧ split s p = runs.map (text s) := by
  have hstart : ∀ i, i + 1 = 0 → ¬ FreeAt (· ∈ cstr p) s i := fun i hi => absurd hi (by omega)
  obtain ⟨runs, hruns, hmap⟩ := strtoks_runs (cstr p) s s.length 0 (by simp) hstart
  rw [List.drop_zero] at hmap
  exact ⟨runs, hruns, by rw [split, cstr_eq_self hs, hmap]⟩

/-- A piece is split no further. -/
theorem split_of_mem_split (hs : 0#8 ∉ s) {t : Bytes} (ht : t ∈ split s p) : split t p = [t] := by
  rw [split_eq, cstr_eq_self hs] at ht
  obtain ⟨hne, hfree, hsub⟩ := of_mem_pieces ht
  have hnul : 0#8 ∉ t := fun h => hs (hsub 0 h)
  rw [split_eq, cstr_eq_self hnul, pieces_of_free hne hfree]

/-- **`split` returns the maximal pieces.** Of a text without a NUL it returns,
in order, the maximal stretches that are not empty and hold no character of the
pattern: there are intervals, each ending in front of the next, that are exactly
the maximal ones, and the result is the text in them. The characters of a
pattern are those up to its first NUL, all of them in the patterns of the
program. Alone the call comes to its end with this result, and each piece of it
split again is itself. -/
theorem split_maximal (s p : Bytes) (hs : 0#8 ∉ s) :
    (∀ deleted : Threads Unit → Bytes,
      ∃ n, alone (fun _ => ⟨s, p⟩) deleted () n = .returned (split s p)) ∧
    (∃ runs : List (NonemptyInterval ℕ),
      runs.Pairwise (fun I J => I.snd < J.fst) ∧
      (∀ I, I ∈ runs ↔ Maximal (Within (FreeAt (· ∈ cstr p) s)) I) ∧
      split s p = runs.map (text s)) ∧
    (0#8 ∉ p → cstr p = p) ∧
    ∀ t ∈ split s p, split t p = [t] := by
  refine ⟨fun deleted => ?_, ?_, cstr_eq_self, fun t ht => split_of_mem_split hs ht⟩
  · exact ⟨_, alone_returns (fun _ : Unit => ⟨s, p⟩) deleted () le_rfl⟩
  · obtain ⟨runs, hruns, hmap⟩ := split_runs hs p
    refine ⟨runs, hruns.ordered, fun I => ?_, hmap⟩
    rw [hruns.mem_iff I]
    exact ⟨fun h => h.1, fun h => ⟨h, Nat.zero_le _⟩⟩

/-- Delimiters at both ends, and two of them in the middle. -/
theorem split_maximal_padded :
    split (str "10.1.0.0/16") (str ",") = [str "10.1.0.0/16"] := by
  obtain ⟨_, _, _, hagain⟩ := split_maximal (str ",10.0.0.0/8,,10.1.0.0/16,") (str ",") (by decide)
  exact hagain (str "10.1.0.0/16") (by decide +kernel)

end Cpe.Proofs.SplitPieces
