import Cpe.Lib.ByteOrder
import Mathlib.Data.List.TakeWhile

/-! # C strings and `strtok`

Texts are byte lists. A `std::string` may hold NUL bytes, its `c_str()` ends
at the first one. `strtok` is a step on the text from its saved cursor; taking
tokens until there are none yields the non-empty pieces between delimiters. -/
namespace Cpe.Lib.CString
open Cpe.Lib.ByteOrder

/-- The bytes of an ASCII literal. -/
def str (s : String) : Bytes := s.toList.map fun c => BitVec.ofNat 8 c.toNat

/-- What C functions see of a string: the bytes before the first NUL. -/
def cstr (s : Bytes) : Bytes := s.takeWhile (· ≠ 0)

/-- One `strtok` call on the text from the cursor: the token and the text from
the new cursor, or `none` when only delimiters are left. -/
def strtok (cur delim : Bytes) : Option (Bytes × Bytes) :=
  let s := cur.dropWhile (· ∈ delim)
  if s = [] then none
  else some (s.takeWhile (· ∉ delim), (s.dropWhile (· ∉ delim)).drop 1)

/-- The tokens of repeated calls; every token takes at least one byte, so the
length of the text is fuel enough. -/
def strtoks : Nat → Bytes → Bytes → List Bytes
  | 0, _, _ => []
  | fuel + 1, cur, delim =>
    match strtok cur delim with
    | none => []
    | some (tok, rest) => tok :: strtoks fuel rest delim

/-- The maximal non-empty pieces of a text without a delimiter, in order. -/
def pieces (delim cur : Bytes) : List Bytes := (cur.splitOnP (· ∈ delim)).filter (· ≠ [])

/-- `strcpy` into an array of `size` bytes: the text of the array if the copy
and its NUL fit, otherwise the behaviour is undefined. -/
def strcpy (size : Nat) (s : Bytes) : Option Bytes :=
  if (cstr s).length < size then some (cstr s) else none

/-- `strcat` behind the text `dest` of an array of `size` bytes. -/
def strcat (size : Nat) (dest s : Bytes) : Option Bytes :=
  if (dest ++ cstr s).length < size then some (dest ++ cstr s) else none

theorem cstr_cstr (s : Bytes) : cstr (cstr s) = cstr s := List.takeWhile_idem

/-- A text that fits a smaller array is copied there through a larger one. -/
theorem strcpy_bind {small large : Nat} (h : small ≤ large) (s : Bytes) :
    (strcpy large s).bind (strcpy small) = strcpy small s := by
  by_cases hs : (cstr s).length < small
  · have hl : (cstr s).length < large := Nat.lt_of_lt_of_le hs h
    rw [strcpy, if_pos hl, Option.bind_some, strcpy, strcpy, cstr_cstr]
  · rw [strcpy, strcpy, if_neg hs]
    by_cases hl : (cstr s).length < large
    · rw [if_pos hl, Option.bind_some, strcpy, cstr_cstr, if_neg hs]
    · rw [if_neg hl, Option.bind_none]

theorem cstr_eq_self {s : Bytes} (h : 0#8 ∉ s) : cstr s = s := by
  apply List.takeWhile_eq_self_iff.mpr
  intro b hb
  simp only [ne_eq, decide_eq_true_eq]
  rintro rfl
  exact h hb

/-- A NUL hides what is behind it. -/
theorem cstr_append_of_mem {xs : Bytes} (h : 0#8 ∈ xs) (ys : Bytes) : cstr (xs ++ ys) = cstr xs := by
  have hstop : ¬ ∀ b ∈ xs, decide (b ≠ 0) = true := by
    intro hall
    have := hall 0 h
    simp at this
  rw [cstr, List.takeWhile_append, if_neg]
  · rfl
  · intro hlen
    have heq : xs.takeWhile (· ≠ 0) = xs :=
      List.IsPrefix.eq_of_length (List.takeWhile_prefix _) hlen
    exact hstop (List.takeWhile_eq_self_iff.mp heq)

theorem cstr_append_of_not_mem {xs : Bytes} (h : 0#8 ∉ xs) (ys : Bytes) :
    cstr (xs ++ ys) = xs ++ cstr ys := by
  have heq : xs.takeWhile (· ≠ 0) = xs := cstr_eq_self h
  rw [cstr, List.takeWhile_append, if_pos (by rw [heq])]
  rfl

/-- Two texts are appended one by one as they are together. -/
theorem strcat_strcat {size : Nat} (dest : Bytes) {s : Bytes} (h : 0#8 ∉ s) (s' : Bytes) :
    (strcat size dest s).bind (fun dest => strcat size dest s') = strcat size dest (s ++ s') := by
  have hboth : dest ++ cstr (s ++ s') = dest ++ cstr s ++ cstr s' := by
    rw [cstr_append_of_not_mem h, cstr_eq_self h, List.append_assoc]
  rw [strcat, strcat, hboth]
  by_cases hfits : (dest ++ cstr s).length < size
  · rw [if_pos hfits]
    rfl
  · have hlong : ¬ (dest ++ cstr s ++ cstr s').length < size := by
      rw [List.length_append]
      omega
    rw [if_neg hfits, if_neg hlong]
    rfl

section
variable {α : Type} {p : α → Bool}

/-- Leading separators only add empty pieces. -/
theorem splitOnP_dropWhile (xs : List α) :
    ((xs.dropWhile p).splitOnP p).filter (· ≠ []) = (xs.splitOnP p).filter (· ≠ []) := by
  induction xs with
  | nil => rfl
  | cons x xs ih =>
    by_cases hx : p x = true
    · rw [List.dropWhile_cons_of_pos hx, ih, List.splitOnP_cons_eq_if_modifyHead]
      simp [hx]
    · rw [List.dropWhile_cons_of_neg hx]

/-- A text splits at its first separator. -/
theorem splitOnP_takeWhile (xs : List α) :
    xs.splitOnP p = match xs.dropWhile (!p ·) with
      | [] => [xs]
      | _ :: rest => xs.takeWhile (!p ·) :: rest.splitOnP p := by
  have hfree : ∀ x ∈ xs.takeWhile (!p ·), p x = false := by
    intro x hx
    simpa using List.mem_takeWhile_imp hx
  have happ : xs.takeWhile (!p ·) ++ xs.dropWhile (!p ·) = xs := List.takeWhile_append_dropWhile
  cases hd : xs.dropWhile (!p ·) with
  | nil =>
    rw [hd, List.append_nil] at happ
    rw [happ] at hfree
    exact List.splitOnP_eq_singleton hfree
  | cons sep rest =>
    have hsep : p sep = true := by
      have := List.head_dropWhile_not (!p ·) (show xs.dropWhile (!p ·) ≠ [] by simp [hd])
      simpa [hd] using this
    rw [hd] at happ
    conv_lhs => rw [← happ]
    exact List.splitOnP_append_cons_of_forall_mem hfree sep hsep rest

end

theorem pieces_of_strtok_none {cur delim : Bytes} (h : strtok cur delim = none) :
    pieces delim cur = [] := by
  unfold strtok at h
  simp only [ite_eq_left_iff, reduceCtorEq, imp_false, Decidable.not_not] at h
  rw [pieces, ← splitOnP_dropWhile, h]
  rfl

/-- A token is the first piece, and the cursor has moved past it. -/
theorem pieces_of_strtok_some {cur delim tok rest : Bytes}
    (h : strtok cur delim = some (tok, rest)) :
    pieces delim cur = tok :: pieces delim rest ∧ rest.length < cur.length := by
  have hskip : (cur.dropWhile (· ∈ delim)).length ≤ cur.length := List.length_dropWhile_le _ _
  unfold strtok at h
  rw [pieces, ← splitOnP_dropWhile]
  generalize hs : cur.dropWhile (· ∈ delim) = s at h hskip
  cases s with
  | nil => cases h
  | cons x xs =>
    -- what is left after the skip starts with a byte that is no delimiter
    have hx : x ∉ delim := by
      have := List.head_dropWhile_not (· ∈ delim) (show cur.dropWhile (· ∈ delim) ≠ [] by simp [hs])
      simpa [hs] using this
    simp only [reduceCtorEq, if_false, Option.some.injEq, Prod.mk.injEq] at h
    obtain ⟨rfl, rfl⟩ := h
    rw [splitOnP_takeWhile (x :: xs)]
    simp only [decide_not, List.takeWhile_cons, List.dropWhile_cons, hx, decide_false,
      Bool.not_false, if_true]
    have hrest : (xs.dropWhile fun b => !decide (b ∈ delim)).length ≤ xs.length :=
      List.length_dropWhile_le _ _
    simp only [List.length_cons] at hskip
    refine ⟨?_, by rw [List.length_drop]; omega⟩
    cases hd : xs.dropWhile (fun b => !decide (b ∈ delim)) with
    | nil =>
      have htake : xs.takeWhile (fun b => !decide (b ∈ delim)) ++
          xs.dropWhile (fun b => !decide (b ∈ delim)) = xs := List.takeWhile_append_dropWhile
      rw [hd, List.append_nil] at htake
      simp [pieces, htake]
    | cons sep tail => simp [pieces]

/-- **Repeated calls give the pieces between delimiters.** -/
theorem strtoks_eq (delim : Bytes) : ∀ (fuel : Nat) (cur : Bytes), cur.length ≤ fuel →
    strtoks fuel cur delim = pieces delim cur
  | 0, cur, h => by
    have hc : cur = [] := List.length_eq_zero_iff.mp (by omega)
    subst hc
    rfl
  | fuel + 1, cur, h => by
    rw [strtoks]
    cases ht : strtok cur delim with
    | none => exact (pieces_of_strtok_none ht).symm
    | some t =>
      obtain ⟨tok, rest⟩ := t
      obtain ⟨hp, hlt⟩ := pieces_of_strtok_some ht
      simp only [hp, strtoks_eq delim fuel rest (by omega)]

/-- A byte of joined texts is the delimiter or in one of them. -/
theorem mem_intercalate {sep b : Byte} {ts : List Bytes} (h : b ∈ [sep].intercalate ts) :
    b = sep ∨ ∃ t ∈ ts, b ∈ t := by
  induction ts with
  | nil => simp [List.intercalate] at h
  | cons t ts ih =>
    by_cases hts : ts = []
    · subst hts
      exact .inr ⟨t, List.mem_cons_self, by simpa [List.intercalate] using h⟩
    · rw [List.intercalate_cons_of_ne_nil hts] at h
      simp only [List.mem_append, List.mem_singleton] at h
      rcases h with (h | h) | h
      · exact .inr ⟨t, List.mem_cons_self, h⟩
      · exact .inl h
      · rcases ih h with h | ⟨t', ht', hb⟩
        · exact .inl h
        · exact .inr ⟨t', List.mem_cons_of_mem t ht', hb⟩

theorem mem_singleton_eq_beq (sep : Byte) :
    (fun b : Byte => decide (b ∈ [sep])) = (· == sep) := by
  funext b
  simp only [List.mem_singleton]
  rfl

/-- The pieces of a text are those in front of a delimiter and those behind
it. -/
theorem pieces_append_of_mem {sep : Byte} {delim : Bytes} (h : sep ∈ delim) (xs ys : Bytes) :
    pieces delim (xs ++ sep :: ys) = pieces delim xs ++ pieces delim ys := by
  have hsep : decide (sep ∈ delim) = true := decide_eq_true h
  rw [pieces, List.splitOnP_append_cons xs ys hsep, List.filter_append]
  rfl

theorem pieces_append (sep : Byte) (xs ys : Bytes) :
    pieces [sep] (xs ++ sep :: ys) = pieces [sep] xs ++ pieces [sep] ys :=
  pieces_append_of_mem List.mem_cons_self xs ys

/-- Texts without the delimiter that it joins are its pieces again, but for the
empty ones. -/
theorem pieces_intercalate (sep : Byte) (ts : List Bytes) (h : ∀ t ∈ ts, sep ∉ t) :
    pieces [sep] ([sep].intercalate ts) = ts.filter (· ≠ []) := by
  by_cases hts : ts = []
  · subst hts
    rfl
  · have hsplit := List.splitOn_intercalate sep h hts
    rw [List.splitOn_eq_splitOnP] at hsplit
    rw [pieces, mem_singleton_eq_beq, hsplit]

/-- Lines are told apart by their ends. -/
theorem splitOn_lines {sep : Byte} {lines : List Bytes} (h : ∀ line ∈ lines, sep ∉ line) :
    (lines.flatMap fun line => line ++ [sep]).splitOn sep = lines ++ [[]] := by
  induction lines with
  | nil => rfl
  | cons line lines ih =>
    have hfree : ∀ b ∈ line, (b == sep) = false := by
      intro b hb
      rw [beq_eq_false_iff_ne]
      rintro rfl
      exact h _ List.mem_cons_self hb
    have hrest := ih fun l hl => h l (List.mem_cons_of_mem line hl)
    rw [List.splitOn_eq_splitOnP] at hrest ⊢
    rw [List.flatMap_cons, List.append_assoc, List.singleton_append,
      List.splitOnP_append_cons_of_forall_mem hfree sep (beq_self_eq_true sep), hrest]
    rfl

end Cpe.Lib.CString
