import Cpe.Lib.Tokens
import Cpe.Uvpp.Hexdump

/-! # The buffer of `hexdump2`

A dump of `hexdump2` is put together in an array of 8192 bytes. It fits for
2674 bytes and no more, and is read back then. -/
namespace Cpe.Proofs.DumpBuffer
open Cpe.Lib.ByteOrder Cpe.Lib.CString Cpe.Lib.Number Cpe.Lib.Tokens Cpe.Uvpp

/-- The numbers in a dump. -/
def readHex (text : Bytes) : Bytes :=
  (pieces (str " \n") text).map fun word => BitVec.ofNat 8 (strtoul 16 word).1

/-- What a turn appends. -/
def column (buf : Ptr) (i : Nat) : Bytes :=
  hex2 (buf i) ++ str " " ++ if (i + 1) % 16 = 0 then str "\n" else []

def columns (buf : Ptr) (n : Nat) : Bytes := (List.range n).flatMap (column buf)

theorem columns_succ (buf : Ptr) (n : Nat) : columns buf (n + 1) = columns buf n ++ column buf n := by
  rw [columns, List.range_succ, List.flatMap_append, List.flatMap_singleton]
  rfl

theorem length_columns (buf : Ptr) (n : Nat) : (columns buf n).length = 3 * n + n / 16 := by
  induction n with
  | zero => rfl
  | succ n ih =>
    have hhex : (hex2 (buf n)).length = 2 := rfl
    rw [columns_succ, List.length_append, ih, column, List.length_append, List.length_append, hhex]
    by_cases hend : (n + 1) % 16 = 0
    · rw [if_pos hend]
      have : (str " ").length = 1 ∧ (str "\n").length = 1 := ⟨rfl, rfl⟩
      omega
    · rw [if_neg hend]
      have : (str " ").length = 1 ∧ ([] : Bytes).length = 0 := ⟨rfl, rfl⟩
      omega

/-! ## The buffer -/

theorem hex2_free {b : Byte} (hb : b = 0 ∨ b = 32 ∨ b = 10) (c : Byte) : b ∉ hex2 c := by
  refine not_mem_hex2 ?_ c
  rcases hb with rfl | rfl | rfl <;> rfl

theorem word_no_nul (buf : Ptr) (i : Nat) : 0 ∉ hex2 (buf i) ++ str " " := by
  intro hmem
  rcases List.mem_append.mp hmem with hmem | hmem
  · exact hex2_free (.inl rfl) (buf i) hmem
  · exact absurd hmem (by decide)

theorem column_no_nul (buf : Ptr) (i : Nat) : 0 ∉ column buf i := by
  intro hmem
  rcases List.mem_append.mp hmem with hmem | hmem
  · exact word_no_nul buf i hmem
  · split at hmem
    · exact absurd hmem (by decide)
    · cases hmem

theorem columns_no_nul (buf : Ptr) (n : Nat) : 0 ∉ columns buf n := by
  intro hmem
  obtain ⟨i, -, hi⟩ := List.mem_flatMap.mp hmem
  exact column_no_nul buf i hi

theorem hexdump2Turn_eq (buf : Ptr) (output : Bytes) (i : Nat) :
    hexdump2Turn buf output i = strcat 8192 output (column buf i) := by
  rw [hexdump2Turn, column]
  by_cases hend : (i + 1) % 16 = 0
  · simp only [if_pos hend]
    exact strcat_strcat output (word_no_nul buf i) (str "\n")
  · simp only [if_neg hend, List.append_nil, Option.bind_fun_some]

/-- The loop appends its columns as long as they fit. -/
theorem foldlM_turns (buf : Ptr) (n : Nat) :
    (List.range n).foldlM (hexdump2Turn buf) [] = strcat 8192 [] (columns buf n) := by
  induction n with
  | zero => rfl
  | succ n ih =>
    rw [List.range_succ, List.foldlM_append, ih, columns_succ,
      ← strcat_strcat [] (columns_no_nul buf n) (column buf n)]
    simp only [List.foldlM_cons, List.foldlM_nil, hexdump2Turn_eq, Option.bind_eq_bind, bind_pure]

/-- All that is put into the buffer. -/
def output (buf : Ptr) (n : Nat) : Bytes :=
  columns buf n ++ if n % 16 ≠ 0 then str "\n" else []

theorem length_output (buf : Ptr) (n : Nat) : (output buf n).length = 3 * n + (n + 15) / 16 := by
  rw [output, List.length_append, length_columns]
  by_cases hend : n % 16 ≠ 0
  · rw [if_pos hend]
    have : (str "\n").length = 1 := rfl
    omega
  · rw [if_neg hend]
    have : ([] : Bytes).length = 0 := rfl
    omega

theorem hexdump2_eq (buf : Ptr) (len : Int) :
    hexdump2 buf len =
      if (output buf len.toNat).length < 8192 then some (output buf len.toNat) else none := by
  have hjoined : hexdump2 buf len = strcat 8192 [] (output buf len.toNat) := by
    rw [hexdump2, foldlM_turns, output]
    by_cases hend : len.toNat % 16 ≠ 0
    · simp only [if_pos hend]
      exact strcat_strcat [] (columns_no_nul buf len.toNat) (str "\n")
    · simp only [if_neg hend, List.append_nil, Option.bind_fun_some]
  have hnul : 0 ∉ output buf len.toNat := by
    intro hmem
    rcases List.mem_append.mp hmem with hmem | hmem
    · exact columns_no_nul buf len.toNat hmem
    · split at hmem
      · exact absurd hmem (by decide)
      · cases hmem
  rw [hjoined, strcat, cstr_eq_self hnul, List.nil_append]

/-! ## Reading -/

theorem pieces_columns (buf : Ptr) (n : Nat) (rest : Bytes) :
    pieces (str " \n") (columns buf n ++ rest) =
      (List.range n).map (fun i => hex2 (buf i)) ++ pieces (str " \n") rest := by
  induction n generalizing rest with
  | zero => rfl
  | succ n ih =>
    have hword : pieces (str " \n") (hex2 (buf n)) = [hex2 (buf n)] := by
      refine pieces_of_free (List.cons_ne_nil _ _) fun b hb hmem => ?_
      have hsep : b = 32 ∨ b = 10 := by simpa [str] using hmem
      exact hex2_free (.inr hsep) (buf n) hb
    have hend : pieces (str " \n") ((if (n + 1) % 16 = 0 then str "\n" else []) ++ rest) =
        pieces (str " \n") rest := by
      split
      · exact pieces_append_of_mem (by decide) [] rest
      · rfl
    have hcolumn : column buf n ++ rest =
        hex2 (buf n) ++ 32 :: ((if (n + 1) % 16 = 0 then str "\n" else []) ++ rest) := by
      simp [column, str]
    rw [columns_succ, List.append_assoc, ih, hcolumn, pieces_append_of_mem (by decide), hword, hend,
      List.range_succ, List.map_append, List.append_assoc]
    rfl

theorem readHex_output (buf : Ptr) (n : Nat) : readHex (output buf n) = buf.slice 0 n := by
  have hend : pieces (str " \n") (if n % 16 ≠ 0 then str "\n" else []) = [] := by
    split <;> rfl
  rw [readHex, output, pieces_columns, hend, List.append_nil, List.map_map, Ptr.slice]
  refine List.map_congr_left fun i _ => ?_
  rw [Function.comp_apply, strtoul_hex2, Nat.zero_add, BitVec.ofNat_toNat, BitVec.setWidth_eq]

/-- **The dump fits for 2674 bytes and no more**, and what is printed then is
read back. -/
theorem hexdump2_fits (buf : Ptr) (len : Int) :
    (len ≤ 2674 ∧ ∃ text, hexdump2 buf len = some text ∧ readHex text = buf.slice 0 len.toNat) ∨
      2674 < len ∧ hexdump2 buf len = none := by
  rw [hexdump2_eq, length_output]
  by_cases hlen : len ≤ 2674
  · rw [if_pos (by omega)]
    exact .inl ⟨hlen, _, rfl, readHex_output buf len.toNat⟩
  · rw [if_neg (by omega)]
    exact .inr ⟨not_le.mp hlen, rfl⟩

end Cpe.Proofs.DumpBuffer
