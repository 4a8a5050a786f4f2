import Cpe.Uvpp.Hexdump

/-! # The three dumps

The dump of a vector or a string is read back as its bytes, as long as their
number fits the `int` that counts them. The dump of a pointer and a length shows
as many zeros first. -/
namespace Cpe.Proofs.DumpOverloads
open Cpe.Lib.ByteOrder Cpe.Lib.CString Cpe.Lib.Number Cpe.Lib.Streams Cpe.Uvpp
open OStream

/-! ## One line -/

/-- The character printed for a byte. -/
def printed (c : Byte) : Byte := if isprint c then c else 46

/-- A line of a dump, without its end. -/
def dumpLine (i : Nat) (chunk : Bytes) : Bytes :=
  List.replicate (4 - (decimal i).length) 48 ++ decimal i ++ str "  " ++
    (chunk.flatMap fun c => hex2 c ++ str " ") ++
    (List.replicate (16 - chunk.length) (str "   ")).flatten ++ str " " ++ chunk.map printed

/-- The bytes of the line that starts at place `i`. -/
def chunkAt (bytes : Bytes) (i : Nat) : Bytes := (bytes.drop i).take 16

theorem length_chunkAt_le (bytes : Bytes) (i : Nat) : (chunkAt bytes i).length ≤ 16 :=
  List.length_take_le _ _

/-- A loop over `n` places that tells those of a list from those behind it. -/
theorem flatMap_range_getD (g : Byte → Bytes) (pad : Bytes) {n : Nat} {chunk : Bytes}
    (h : chunk.length ≤ n) :
    ((List.range n).flatMap fun j => if j < chunk.length then g (chunk.getD j 0) else pad) =
      chunk.flatMap g ++ (List.replicate (n - chunk.length) pad).flatten := by
  induction chunk generalizing n with
  | nil =>
    have hpad : ((List.range n).map fun _ => pad) = List.replicate n pad := by
      rw [List.map_const', List.length_range]
    simp only [List.length_nil, Nat.not_lt_zero, if_false, List.flatMap_def, hpad]
    rfl
  | cons c chunk ih =>
    obtain ⟨m, rfl⟩ : ∃ m, n = m + 1 := ⟨n - 1, by rw [List.length_cons] at h; omega⟩
    have hm : chunk.length ≤ m := by
      rw [List.length_cons] at h
      omega
    have hrest := ih hm
    rw [List.range_succ_eq_map, List.flatMap_cons, List.flatMap_map]
    simp only [List.length_cons, Nat.zero_lt_succ, if_true, Nat.succ_eq_add_one,
      Nat.add_lt_add_iff_right, List.getD_cons_zero, List.getD_cons_succ, List.flatMap_cons,
      Nat.add_sub_add_right, hrest, List.append_assoc]

section
variable {bytes : Bytes} {buflen i : Nat}

/-- Place `j` of the line at `i`. -/
theorem lt_length_chunkAt (hlen : buflen ≤ bytes.length) {j : Nat} (hj : j < 16) :
    j < (chunkAt (bytes.take buflen) i).length ↔ i + j < buflen := by
  rw [chunkAt, List.length_take, List.length_drop, List.length_take]
  omega

theorem getD_chunkAt {j : Nat} (hj : j < 16) (hin : i + j < buflen) :
    (chunkAt (bytes.take buflen) i).getD j 0 = bytes.getD (i + j) 0 := by
  rw [List.getD_eq_getElem?_getD, List.getD_eq_getElem?_getD, chunkAt, List.getElem?_take,
    if_pos hj, List.getElem?_drop, List.getElem?_take, if_pos hin]

/-- A loop over the places of a line. -/
theorem flatMap_places (g : Byte → Bytes) (pad : Bytes) (hlen : buflen ≤ bytes.length) :
    ((List.range 16).flatMap fun j => if i + j < buflen then g (bytes.getD (i + j) 0) else pad) =
      (chunkAt (bytes.take buflen) i).flatMap g ++
        (List.replicate (16 - (chunkAt (bytes.take buflen) i).length) pad).flatten := by
  rw [← flatMap_range_getD g pad (length_chunkAt_le _ _)]
  apply List.flatMap_congr
  intro j hj
  have hj16 := List.mem_range.mp hj
  by_cases hin : i + j < buflen
  · rw [if_pos hin, if_pos ((lt_length_chunkAt hlen hj16).mpr hin), getD_chunkAt hj16 hin]
  · rw [if_neg hin, if_neg (fun h => hin ((lt_length_chunkAt hlen hj16).mp h))]

/-- `int(c) & 0xFF` is the byte again, whatever its sign. -/
theorem signExtend_and (c : Byte) : (c.signExtend 32 &&& 0xFF).toNat = c.toNat := by
  have hall : ∀ c : Byte, (c.signExtend 32 &&& 0xFF#32).toNat = c.toNat := by decide +kernel
  exact hall c

/-- The two loops of a turn. -/
theorem foldl_columns (hlen : buflen ≤ bytes.length) (text : Bytes) :
    (List.range 16).foldl (fun buff j =>
      if i + j < buflen then
        let c := bytes.getD (i + j) 0
        (((buff.setfill 48).setw 2).putInt (c.signExtend 32 &&& 0xFF).toNat).put (str " ")
      else buff.put (str "   ")) (zeroFilled 16 text) =
    zeroFilled 16 (text ++ ((chunkAt (bytes.take buflen) i).flatMap (fun c => hex2 c ++ str " ") ++
      (List.replicate (16 - (chunkAt (bytes.take buflen) i).length) (str "   ")).flatten)) := by
  rw [← flatMap_places _ _ hlen]
  refine foldl_zeroFilled (fun text j => ?_) _ _
  by_cases hin : i + j < buflen
  · rw [if_pos hin, if_pos hin]
    have hfill : (zeroFilled 16 text).setfill 48 = zeroFilled 16 text := rfl
    simp only [hfill, signExtend_and, putInt_setw, padded_numeral, put_zeroFilled]
    rw [List.append_assoc]
  · rw [if_neg hin, if_neg hin, put_zeroFilled]

theorem foldl_printed (hlen : buflen ≤ bytes.length) (text : Bytes) :
    (List.range 16).foldl (fun buff j =>
      if i + j < buflen then
        let c := bytes.getD (i + j) 0
        if isprint c then buff.put [c] else buff.put (str ".")
      else buff) (zeroFilled 10 text) =
    zeroFilled 10 (text ++ (chunkAt (bytes.take buflen) i).map printed) := by
  have hplaces := flatMap_places (i := i) (fun c => [printed c]) [] hlen
  rw [List.flatten_replicate_nil, List.append_nil, ← List.map_eq_flatMap] at hplaces
  rw [← hplaces]
  refine foldl_zeroFilled (fun text j => ?_) _ _
  by_cases hin : i + j < buflen
  · rw [if_pos hin, if_pos hin]
    unfold printed
    by_cases hprint : isprint (bytes.getD (i + j) 0) = true
    · simp only [hprint, if_true, put_zeroFilled]
    · simp only [hprint, Bool.false_eq_true, if_false, put_zeroFilled]
      rfl
  · rw [if_neg hin, if_neg hin, List.append_nil]

/-- **A turn writes a line** and leaves the stream in decimal. -/
theorem hexdumpLine_eq (hlen : buflen ≤ bytes.length) {buff : OStream} (hbase : buff.base = 10)
    (hwidth : buff.width = 0) :
    hexdumpLine bytes buflen i buff =
      zeroFilled 10 (buff.text ++ (dumpLine i (chunkAt (bytes.take buflen) i) ++ [10])) := by
  have hhex : ∀ text, (zeroFilled 10 text).hex = zeroFilled 16 text := fun _ => rfl
  have hdec : ∀ text, (zeroFilled 16 text).dec = zeroFilled 10 text := fun _ => rfl
  have hendl : ∀ text, (zeroFilled 10 text).endl = zeroFilled 10 (text ++ [10]) := fun _ => rfl
  unfold hexdumpLine
  simp only [right_setfill hwidth, hbase, putInt_setw, numeral_ten, put_zeroFilled, hhex,
    foldl_columns hlen, hdec, foldl_printed hlen, hendl, dumpLine, List.append_assoc]

end

/-! ## Reading a line -/

theorem readColumns_hex2 (n : Nat) (c : Byte) (rest : Bytes) :
    readColumns (n + 1) (hex2 c ++ str " " ++ rest) = c :: readColumns n rest := by
  have hvalue : 16 * (c.toNat / 16) + c.toNat % 16 = c.toNat := Nat.div_add_mod _ _
  change readColumns (n + 1) (hexDigit (c.toNat / 16) :: hexDigit (c.toNat % 16) :: 32 :: rest) = _
  rw [readColumns, digitVal_hexDigit (hi_lt c), digitVal_hexDigit (lo_lt c),
    if_pos ⟨hi_lt c, lo_lt c⟩, hvalue, BitVec.ofNat_toNat, BitVec.setWidth_eq]

theorem readColumns_chunk {n : Nat} {chunk : Bytes} (h : chunk.length ≤ n) (rest : Bytes) :
    readColumns n ((chunk.flatMap fun c => hex2 c ++ str " ") ++ rest) =
      chunk ++ readColumns (n - chunk.length) rest := by
  induction chunk generalizing n with
  | nil => rfl
  | cons c chunk ih =>
    rw [List.length_cons] at h
    obtain ⟨m, rfl⟩ : ∃ m, n = m + 1 := ⟨n - 1, by omega⟩
    rw [List.flatMap_cons, List.append_assoc, readColumns_hex2, ih (by omega), List.length_cons,
      Nat.add_sub_add_right, List.cons_append]

/-- A blank column is the end of a line's bytes. -/
theorem readColumns_blank (n : Nat) (rest : Bytes) :
    readColumns n ((List.replicate n (str "   ")).flatten ++ rest) = [] := by
  cases n with
  | zero => rfl
  | succ n =>
    have hblank : ¬ digitVal 32 < 16 := by decide
    rw [List.replicate_succ, List.flatten_cons]
    change readColumns (n + 1) (32 :: 32 :: 32 :: _) = []
    rw [readColumns, if_neg (fun h => hblank h.1)]

theorem offset_ne_space (i : Nat) :
    ∀ b ∈ List.replicate (4 - (decimal i).length) (48 : Byte) ++ decimal i, b ≠ 32 := by
  intro b hb
  rcases List.mem_append.mp hb with hb | hb
  · rw [List.eq_of_mem_replicate hb]
    decide
  · rintro rfl
    exact absurd ((decimal_digits i).digit 32 hb).1 (by decide)

/-- **A line is read back.** -/
theorem readLine_dumpLine (i : Nat) {chunk : Bytes} (h : chunk.length ≤ 16) :
    readLine (dumpLine i chunk) = chunk := by
  have hoffset : ∀ b ∈ List.replicate (4 - (decimal i).length) (48 : Byte) ++ decimal i,
      decide (b ≠ 32) = true := by
    intro b hb
    simpa using offset_ne_space i b hb
  unfold readLine dumpLine
  simp only [List.append_assoc]
  rw [← List.append_assoc, List.dropWhile_append_of_pos hoffset]
  change readColumns 16 ((chunk.flatMap fun c => hex2 c ++ str " ") ++ _) = chunk
  rw [readColumns_chunk h, readColumns_blank, List.append_nil]

/-! ## Lines -/

theorem newline_not_mem_dumpLine (i : Nat) (chunk : Bytes) : (10 : Byte) ∉ dumpLine i chunk := by
  have hprinted : ∀ c, printed c ≠ 10 := by
    intro c hc
    unfold printed at hc
    split at hc
    · rename_i hprint
      rw [hc] at hprint
      exact absurd hprint (by decide)
    · exact absurd hc (by decide)
  intro hmem
  simp only [dumpLine, List.mem_append, List.mem_flatMap, List.mem_map, List.mem_flatten] at hmem
  rcases hmem with (((((hmem | hmem) | hmem) | hmem) | hmem) | hmem) | hmem
  · rw [List.mem_replicate] at hmem
    exact absurd hmem.2 (by decide)
  · exact absurd ((decimal_digits i).digit 10 hmem).1 (by decide)
  · exact absurd hmem (by decide)
  · obtain ⟨c, -, hmem | hmem⟩ := hmem
    · exact not_mem_hex2 rfl c hmem
    · exact absurd hmem (by decide)
  · obtain ⟨blank, hblank, hmem⟩ := hmem
    rw [List.eq_of_mem_replicate hblank] at hmem
    exact absurd hmem (by decide)
  · exact absurd hmem (by decide)
  · obtain ⟨c, -, hc⟩ := hmem
    exact hprinted c hc

/-! ## The whole dump -/

/-- The first `n` lines, without their ends. -/
def dumpLines (bytes : Bytes) (n : Nat) : List Bytes :=
  (List.range n).map fun k => dumpLine (16 * k) (chunkAt bytes (16 * k))

/-- Lines of sixteen bytes one after the other. -/
theorem flatMap_chunkAt (bytes : Bytes) (n : Nat) :
    ((List.range n).flatMap fun k => chunkAt bytes (16 * k)) = bytes.take (16 * n) := by
  induction n with
  | zero => rfl
  | succ n ih =>
    rw [List.range_succ, List.flatMap_append, ih, List.flatMap_singleton, chunkAt, Nat.mul_succ,
      List.take_add]

/-- The lines are read back as the bytes they were printed from. -/
theorem readDump_dumpLines (bytes : Bytes) (n : Nat) :
    readDump ((dumpLines bytes n).flatMap (· ++ [10])) = bytes.take (16 * n) := by
  have hends : ∀ line ∈ dumpLines bytes n, (10 : Byte) ∉ line := by
    intro line hline
    obtain ⟨k, -, rfl⟩ := List.mem_map.mp hline
    exact newline_not_mem_dumpLine _ _
  have hread : ∀ k, readLine (dumpLine (16 * k) (chunkAt bytes (16 * k))) =
      chunkAt bytes (16 * k) := fun k => readLine_dumpLine _ (length_chunkAt_le _ _)
  have hempty : readLine [] = [] := rfl
  rw [readDump, splitOn_lines hends, List.flatMap_append, List.flatMap_singleton, hempty,
    List.append_nil, dumpLines, List.flatMap_map]
  simp only [hread, flatMap_chunkAt]

/-- Behind `n` turns the stream holds `n` lines and is in decimal again. -/
theorem foldl_hexdumpLine {bytes : Bytes} {buflen : Nat} (hlen : buflen ≤ bytes.length) (n : Nat) :
    ∃ buff, (List.range n).foldl (fun buff k => hexdumpLine bytes buflen (16 * k) buff) {} = buff ∧
      buff.base = 10 ∧ buff.width = 0 ∧
      buff.text = (dumpLines (bytes.take buflen) n).flatMap (· ++ [10]) := by
  induction n with
  | zero => exact ⟨{}, rfl, rfl, rfl, rfl⟩
  | succ n ih =>
    obtain ⟨buff, hbuff, hbase, hwidth, htext⟩ := ih
    have hlines : dumpLines (bytes.take buflen) (n + 1) = dumpLines (bytes.take buflen) n ++
        [dumpLine (16 * n) (chunkAt (bytes.take buflen) (16 * n))] := by
      rw [dumpLines, List.range_succ, List.map_append, List.map_singleton, dumpLines]
    refine ⟨_, rfl, ?_⟩
    rw [List.range_succ, List.foldl_append, hbuff, List.foldl_cons, List.foldl_nil,
      hexdumpLine_eq hlen hbase hwidth, hlines, List.flatMap_append, List.flatMap_singleton,
      ← htext]
    exact ⟨rfl, rfl, rfl⟩

theorem intOf_eq (n : Nat) :
    intOf n = if n % 2 ^ 32 < 2 ^ 31 then ((n % 2 ^ 32 : Nat) : Int)
      else ((n % 2 ^ 32 : Nat) : Int) - 2 ^ 32 := by
  rw [intOf, BitVec.toInt_eq_toNat_cond, BitVec.toNat_ofNat]
  by_cases h : n % 2 ^ 32 < 2 ^ 31
  · rw [if_pos h, if_pos (by omega)]
  · rw [if_neg h, if_neg (by omega)]
    rfl

theorem intOf_of_lt {n : Nat} (h : n < 2 ^ 31) : intOf n = n := by
  have hmod : n % 2 ^ 32 = n := Nat.mod_eq_of_lt (by omega)
  rw [intOf_eq, hmod, if_pos h]

theorem toNat_intOf_le (n : Nat) : (intOf n).toNat ≤ n := by
  have hmod := Nat.mod_le n (2 ^ 32)
  rw [intOf_eq]
  split <;> omega

/-- A dump is printed if the loop can count up to its end. -/
theorem hexdump_isSome {bytes : Bytes} (h : bytes.length ≤ 2 ^ 31 - 16) :
    ∃ text, hexdump bytes = some text := by
  have hfits : 16 * (((intOf bytes.length).toNat + 15) / 16) < 2 ^ 31 := by
    rw [intOf_of_lt (by omega), Int.toNat_natCast]
    omega
  unfold hexdump
  simp only [hfits, if_true]
  exact ⟨_, rfl⟩

/-- **What is printed is read back**: as many bytes as the `int` counts. -/
theorem readDump_hexdump {bytes text : Bytes} (h : hexdump bytes = some text) :
    readDump text = bytes.take (intOf bytes.length).toNat := by
  unfold hexdump at h
  simp only at h
  split at h
  · generalize hbuflen : (intOf bytes.length).toNat = buflen at h
    have hlen : buflen ≤ bytes.length := hbuflen ▸ toNat_intOf_le bytes.length
    obtain ⟨buff, hbuff, -, -, htext⟩ := foldl_hexdumpLine hlen ((buflen + 15) / 16)
    have hall : (bytes.take buflen).length ≤ 16 * ((buflen + 15) / 16) := by
      rw [List.length_take]
      omega
    rw [hbuff, htext] at h
    rw [← Option.some.inj h, readDump_dumpLines, List.take_of_length_le hall]
  · cases h

/-! ## The overloads -/

theorem hexdumpString_eq (msg : Bytes) : hexdumpString msg = hexdump msg := by
  have hdrop : (List.replicate msg.length 0#8).drop msg.length = [] := by
    rw [List.drop_replicate, Nat.sub_self]
    rfl
  unfold hexdumpString
  simp only [hdrop, List.append_nil]

/-- The pointer overload dumps the bytes behind as many zeros. -/
theorem hexdumpPtr_eq {data : Ptr} {d : Bytes} (h : data.StartsWith d)
    (hlen : d.length < 2 ^ 31) :
    hexdumpPtr data (intOf d.length) = hexdump (List.replicate d.length 0#8 ++ d) := by
  have hslice : data.slice 0 d.length = d := by
    have hread := slice_startsWith h (Nat.le_of_eq (Nat.zero_add d.length))
    rwa [List.drop_zero, List.take_length] at hread
  unfold hexdumpPtr
  rw [intOf_of_lt hlen, if_neg (by omega)]
  simp only [Int.toNat_natCast, hslice]

/-- Strings and vectors are dumped alike and faithfully. -/
theorem hexdump_faithful {d : Bytes} (h : d.length ≤ 2 ^ 31 - 16) :
    ∃ text, hexdump d = some text ∧ hexdumpString d = some text ∧ readDump text = d := by
  obtain ⟨text, htext⟩ := hexdump_isSome h
  refine ⟨text, htext, (hexdumpString_eq d).trans htext, ?_⟩
  rw [readDump_hexdump htext, intOf_of_lt (by omega), Int.toNat_natCast, List.take_length]

/-- The overloads print the same text, and the bytes are read back from it. -/
def DumpsAgree (d : Bytes) (data : Ptr) : Prop :=
  ∃ text, hexdump d = some text ∧ hexdumpString d = some text ∧
    hexdumpPtr data (intOf d.length) = some text ∧ readDump text = d

/-- **The three dumps agree on nothing but the empty string.** -/
theorem dumps_agree_iff (d : Bytes) (data : Ptr) (h : data.StartsWith d) :
    DumpsAgree d data ↔ d = [] := by
  constructor
  · rintro ⟨text, hvector, -, hptr, hread⟩
    have hcounted := congrArg List.length (hread.symm.trans (readDump_hexdump hvector))
    rw [List.length_take] at hcounted
    -- the vector overload gives all bytes back only if an `int` holds their number
    have hlen : d.length < 2 ^ 31 := by
      rw [intOf_eq] at hcounted
      split at hcounted <;> omega
    rw [hexdumpPtr_eq h hlen] at hptr
    have hbehind := congrArg List.length (hread.symm.trans (readDump_hexdump hptr))
    rw [List.length_take, List.length_append, List.length_replicate, intOf_eq] at hbehind
    apply List.length_eq_zero_iff.mp
    split at hbehind <;> omega
  · rintro rfl
    refine ⟨[], rfl, rfl, ?_, rfl⟩
    exact (hexdumpPtr_eq h (by decide)).trans rfl

/-- Nothing to print, and a name. -/
theorem empty_agrees_name_does_not :
    DumpsAgree [] (Ptr.ofBytes (str "cpe")) ∧
      ¬ DumpsAgree (str "cpe") (Ptr.ofBytes (str "cpe")) := by
  refine ⟨(dumps_agree_iff [] _ fun _ hi => absurd hi (Nat.not_lt_zero _)).mpr rfl, fun h => ?_⟩
  exact absurd ((dumps_agree_iff _ _ (ofBytes_startsWith (str "cpe"))).mp h) (by decide)

/-- One letter: the pointer overload prints a zero in front of it. -/
theorem letter_dumped_behind_zero : ¬ DumpsAgree [0x41] (Ptr.ofBytes [0x41]) := by
  rintro ⟨text, hvector, -, hptr, -⟩
  have hdiffer : hexdump [0x41] ≠ hexdumpPtr (Ptr.ofBytes [0x41]) 1 := by decide
  exact hdiffer (hvector.trans hptr.symm)

end Cpe.Proofs.DumpOverloads
