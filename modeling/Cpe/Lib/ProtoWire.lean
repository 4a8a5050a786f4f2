import Cpe.Lib.ByteOrder

/-! # Protobuf wire format

A message is a sequence of tagged fields. `parseMessage` folds a handler over
the fields; it stops at the first field that cannot be read or that the
handler refuses, and then leaves what was gathered before. A parser that works
in place leaves more of a refused input, part of a field that is cut short: what
`parseMessage` gives besides `false` is not meant for it. What the writers write
is read back field by field. -/
namespace Cpe.Lib.ProtoWire
open Cpe.Lib.ByteOrder

inductive Payload
  | varint (v : Nat)
  | i64 (b : Bytes)
  | len (b : Bytes)
  | i32 (b : Bytes)
  | group
deriving DecidableEq, Repr

/-- A base-128 number of at most `k` bytes. -/
def readVarint : Nat → Bytes → Option (Nat × Bytes)
  | 0, _ => none
  | _ + 1, [] => none
  | k + 1, b :: bs =>
    if b < 128 then some (b.toNat, bs)
    else (readVarint k bs).map fun r => (b.toNat - 128 + 128 * r.1, r.2)

/-- The first `n` bytes and the rest, when there are that many. -/
def takeBytes (n : Nat) (bs : Bytes) : Option (Bytes × Bytes) :=
  if n ≤ bs.length then some (bs.take n, bs.drop n) else none

/-- Where `ReadSize` stops: `INT_MAX - kSlopBytes`. -/
def maxSize : Nat := 2 ^ 31 - 17

/-- The payload of a wire type other than the two group marks, when all of it is
there. -/
def readPayload (wireType : Nat) (bs : Bytes) : Option (Payload × Bytes) :=
  if wireType = 0 then (readVarint 10 bs).map fun r => (.varint (r.1 % 2 ^ 64), r.2)
  else if wireType = 1 then (takeBytes 8 bs).map fun r => (.i64 r.1, r.2)
  else if wireType = 2 then do
    let (n, bs) ← readVarint 5 bs
    if n ≤ maxSize then (takeBytes n bs).map fun r => (.len r.1, r.2) else none
  else if wireType = 5 then (takeBytes 4 bs).map fun r => (.i32 r.1, r.2)
  else none

/-- Skips to the end of the outermost of the open groups, of which there may be
`depth` at a time. The first argument bounds the number of tags. -/
def skipGroup (depth : Nat) : Nat → List Nat → Bytes → Option Bytes
  | _, [], bs => some bs
  | 0, _ :: _, _ => none
  | tags + 1, n :: opened, bs => do
    let (tag, bs) ← readVarint 5 bs
    let num := tag % 2 ^ 32 / 8
    if num = 0 then none
    else if tag % 8 = 4 then if num = n then skipGroup depth tags opened bs else none
    else if tag % 8 = 3 then
      if opened.length + 2 ≤ depth then skipGroup depth tags (num :: n :: opened) bs else none
    else do
      let (_, bs) ← readPayload (tag % 8) bs
      skipGroup depth tags (n :: opened) bs

/-- One field: its number, its payload and what follows. -/
def readField (depth : Nat) (bs : Bytes) : Option ((Nat × Payload) × Bytes) := do
  let (tag, bs) ← readVarint 5 bs
  let num := tag % 2 ^ 32 / 8
  if num = 0 then none
  else if tag % 8 = 3 then
    if 1 ≤ depth then (skipGroup depth bs.length [num] bs).map fun rest => ((num, .group), rest)
    else none
  else (readPayload (tag % 8) bs).map fun r => ((num, r.1), r.2)

section
variable {μ : Type} (depth : Nat) (onField : μ → Nat → Payload → Bool × μ)

def parseFields : Nat → μ → Bytes → Bool × μ
  | _, m, [] => (true, m)
  | 0, m, _ :: _ => (false, m)
  | fuel + 1, m, b :: bs =>
    match readField depth (b :: bs) with
    | none => (false, m)
    | some ((num, v), rest) =>
      match onField m num v with
      | (true, m) => parseFields fuel m rest
      | (false, m) => (false, m)

/-- A message in which `depth` more levels may be nested. Every field takes at
least one byte. -/
def parseMessage (m : μ) (bs : Bytes) : Bool × μ := parseFields depth onField bs.length m bs

end

/-! ## Writing -/

/-- A number in base 128, cut off after `k` bytes. -/
def writeVarint : Nat → Nat → Bytes
  | 0, _ => []
  | k + 1, v =>
    if v < 128 then [BitVec.ofNat 8 v] else BitVec.ofNat 8 (128 + v % 128) :: writeVarint k (v / 128)

def writeLen (num : Nat) (b : Bytes) : Bytes :=
  writeVarint 5 (8 * num + 2) ++ writeVarint 5 b.length ++ b

/-- A negative `int32` is written as the 64-bit number. -/
def writeInt32 (num : Nat) (x : U32) : Bytes :=
  if x = 0 then [] else writeVarint 5 (8 * num) ++ writeVarint 10 (x.signExtend 64).toNat

def writeBytes (num : Nat) (b : Bytes) : Bytes := if b = [] then [] else writeLen num b

/-! ## A field takes at least one byte -/

theorem readVarint_length {k : Nat} {bs rest : Bytes} {v : Nat}
    (h : readVarint k bs = some (v, rest)) : rest.length < bs.length := by
  induction k generalizing bs v with
  | zero => cases h
  | succ k ih =>
    cases bs with
    | nil => cases h
    | cons b bs =>
      rw [readVarint] at h
      split at h
      · cases h
        exact Nat.lt_succ_self _
      · obtain ⟨⟨w, rest'⟩, hw, heq⟩ := Option.map_eq_some_iff.mp h
        cases heq
        exact (ih hw).trans (Nat.lt_succ_self _)

theorem takeBytes_length {n : Nat} {bs b rest : Bytes} (h : takeBytes n bs = some (b, rest)) :
    rest.length ≤ bs.length := by
  unfold takeBytes at h
  split at h
  · cases h
    exact (List.drop_sublist n bs).length_le
  · cases h

theorem readPayload_length {wireType : Nat} {bs rest : Bytes} {v : Payload}
    (h : readPayload wireType bs = some (v, rest)) : rest.length ≤ bs.length := by
  unfold readPayload at h
  split at h
  · obtain ⟨r, hr, heq⟩ := Option.map_eq_some_iff.mp h
    cases heq
    exact (readVarint_length hr).le
  split at h
  · obtain ⟨r, hr, heq⟩ := Option.map_eq_some_iff.mp h
    cases heq
    exact takeBytes_length hr
  split at h
  · obtain ⟨⟨n, bs'⟩, hn, h⟩ := Option.bind_eq_some_iff.mp h
    simp only at h
    split at h
    · obtain ⟨r, hr, heq⟩ := Option.map_eq_some_iff.mp h
      cases heq
      exact (takeBytes_length hr).trans (readVarint_length hn).le
    · cases h
  split at h
  · obtain ⟨r, hr, heq⟩ := Option.map_eq_some_iff.mp h
    cases heq
    exact takeBytes_length hr
  · cases h

theorem skipGroup_length {depth tags : Nat} {opened : List Nat} {bs rest : Bytes}
    (h : skipGroup depth tags opened bs = some rest) : rest.length ≤ bs.length := by
  induction tags generalizing opened bs with
  | zero =>
    cases opened with
    | nil =>
      cases h
      exact le_rfl
    | cons n opened => cases h
  | succ tags ih =>
    cases opened with
    | nil =>
      cases h
      exact le_rfl
    | cons n opened =>
      rw [skipGroup] at h
      obtain ⟨⟨tag, bs'⟩, htag, h⟩ := Option.bind_eq_some_iff.mp h
      have hlt := readVarint_length htag
      simp only at h
      split at h
      · cases h
      split at h
      · split at h
        · exact (ih h).trans hlt.le
        · cases h
      split at h
      · split at h
        · exact (ih h).trans hlt.le
        · cases h
      · obtain ⟨⟨v, bs''⟩, hv, h⟩ := Option.bind_eq_some_iff.mp h
        exact (ih h).trans ((readPayload_length hv).trans hlt.le)

theorem readField_length {depth : Nat} {bs rest : Bytes} {field : Nat × Payload}
    (h : readField depth bs = some (field, rest)) : rest.length < bs.length := by
  obtain ⟨⟨tag, bs'⟩, htag, h⟩ := Option.bind_eq_some_iff.mp h
  have hlt := readVarint_length htag
  simp only at h
  split at h
  · cases h
  split at h
  · split at h
    · obtain ⟨r, hr, heq⟩ := Option.map_eq_some_iff.mp h
      cases heq
      exact (skipGroup_length hr).trans_lt hlt
    · cases h
  · obtain ⟨r, hr, heq⟩ := Option.map_eq_some_iff.mp h
    cases heq
    exact (readPayload_length hr).trans_lt hlt

section
variable {μ : Type} {depth : Nat} {onField : μ → Nat → Payload → Bool × μ}

/-- More fuel than bytes changes nothing. -/
theorem parseFields_fuel {fuel : Nat} {m : μ} {bs : Bytes} (h : bs.length ≤ fuel) :
    parseFields depth onField fuel m bs = parseMessage depth onField m bs := by
  induction hn : bs.length using Nat.strong_induction_on generalizing fuel m bs with
  | _ n ih =>
    subst hn
    cases bs with
    | nil => cases fuel <;> rfl
    | cons b bs =>
      obtain ⟨fuel, rfl⟩ : ∃ k, fuel = k + 1 := ⟨fuel - 1, by simp at h; omega⟩
      rw [parseMessage, List.length_cons, parseFields, parseFields]
      cases hf : readField depth (b :: bs) with
      | none => rfl
      | some r =>
        obtain ⟨⟨num, v⟩, rest⟩ := r
        have hlt := readField_length hf
        simp only [List.length_cons] at h hlt
        simp only
        cases onField m num v with
        | mk ok m' =>
          cases ok with
          | false => rfl
          | true =>
            exact (ih _ hlt (by omega) rfl).trans (ih _ hlt (by omega) rfl).symm

@[simp] theorem parseMessage_nil (m : μ) : parseMessage depth onField m [] = (true, m) := rfl

/-- A field that can be read and is accepted is handled before the rest. -/
theorem parseMessage_field {m m' : μ} {num : Nat} {v : Payload} {bs rest : Bytes}
    (hread : readField depth bs = some ((num, v), rest)) (hfield : onField m num v = (true, m')) :
    parseMessage depth onField m bs = parseMessage depth onField m' rest := by
  have hlt := readField_length hread
  cases bs with
  | nil => cases hlt
  | cons b bs =>
    rw [parseMessage, List.length_cons, parseFields, hread]
    simp only [hfield]
    exact parseFields_fuel (Nat.lt_succ_iff.mp hlt)

end

/-! ## Reading what was written -/

/-- A number of one byte. -/
theorem readVarint_writeVarint_one (k : Nat) {v : Nat} (hv : v < 128) (rest : Bytes) :
    readVarint (k + 1) (writeVarint (k + 1) v ++ rest) = some (v, rest) := by
  have hb : (BitVec.ofNat 8 v).toNat = v := by simp; omega
  rw [writeVarint, if_pos hv, List.singleton_append, readVarint, if_pos, hb]
  rw [BitVec.lt_def, hb]
  exact hv

/-- **A varint reads back**, whatever follows it. -/
theorem readVarint_writeVarint {k v : Nat} (h : v < 128 ^ (k + 1)) (rest : Bytes) :
    readVarint (k + 1) (writeVarint (k + 1) v ++ rest) = some (v, rest) := by
  induction k generalizing v with
  | zero => exact readVarint_writeVarint_one 0 (by simpa using h) rest
  | succ k ih =>
    by_cases hv : v < 128
    · exact readVarint_writeVarint_one (k + 1) hv rest
    · have hb : (BitVec.ofNat 8 (128 + v % 128)).toNat = 128 + v % 128 := by simp; omega
      have hdiv : v / 128 < 128 ^ (k + 1) := by
        rw [Nat.div_lt_iff_lt_mul (by omega), ← pow_succ]
        exact h
      rw [writeVarint, if_neg hv, List.cons_append, readVarint, if_neg, ih hdiv, hb]
      · simp only [Option.map_some, Option.some.injEq, Prod.mk.injEq, and_true]
        omega
      · rw [BitVec.lt_def, hb]
        simp

/-- The numbers a field can have. -/
def FieldNumber (num : Nat) : Prop := 0 < num ∧ num < 2 ^ 29

instance (num : Nat) : Decidable (FieldNumber num) := inferInstanceAs (Decidable (_ ∧ _))

variable {depth num : Nat}

theorem readField_writeLen (hnum : FieldNumber num) {b : Bytes} (hb : b.length ≤ maxSize)
    (rest : Bytes) :
    readField depth (writeLen num b ++ rest) = some ((num, .len b), rest) := by
  obtain ⟨hpos, hlt⟩ := hnum
  have htag : (8 * num + 2) % 2 ^ 32 / 8 = num := by omega
  have htype : (8 * num + 2) % 8 = 2 := by omega
  have hlen : readVarint 5 (writeVarint 5 b.length ++ (b ++ rest)) = some (b.length, b ++ rest) :=
    readVarint_writeVarint (by unfold maxSize at hb; omega) (b ++ rest)
  rw [readField, writeLen, List.append_assoc, List.append_assoc,
    readVarint_writeVarint (by omega)]
  simp only [Option.bind_eq_bind, Option.bind_some, htag, htype]
  rw [if_neg (by omega), if_neg (by omega), readPayload, if_neg (by omega), if_neg (by omega),
    if_pos rfl]
  simp [hlen, hb, takeBytes]

theorem readField_writeInt32 (hnum : FieldNumber num) {x : U32} (hx : x ≠ 0) (rest : Bytes) :
    readField depth (writeInt32 num x ++ rest) =
      some ((num, .varint (x.signExtend 64).toNat), rest) := by
  obtain ⟨hpos, hnum⟩ := hnum
  have htag : 8 * num % 2 ^ 32 / 8 = num := by omega
  have htype : 8 * num % 8 = 0 := by omega
  have hlt : (x.signExtend 64).toNat < 2 ^ 64 := (x.signExtend 64).isLt
  rw [readField, writeInt32, if_neg hx, List.append_assoc, readVarint_writeVarint (by omega)]
  simp only [Option.bind_eq_bind, Option.bind_some, htag, htype]
  rw [if_neg (by omega), if_neg (by omega), readPayload, if_pos rfl,
    readVarint_writeVarint (by omega), Option.map_some, Nat.mod_eq_of_lt hlt]
  rfl

section
variable {μ : Type} {onField : μ → Nat → Payload → Bool × μ} {m m' : μ}

theorem parseMessage_writeLen (hnum : FieldNumber num) {b : Bytes}
    (hb : b.length ≤ maxSize) (hfield : onField m num (.len b) = (true, m')) (rest : Bytes) :
    parseMessage depth onField m (writeLen num b ++ rest) = parseMessage depth onField m' rest :=
  parseMessage_field (readField_writeLen hnum hb rest) hfield

/-- A field that is not written has to have its default value. -/
theorem parseMessage_writeBytes (hnum : FieldNumber num) {b : Bytes}
    (hb : b.length ≤ maxSize) (hfield : onField m num (.len b) = (true, m'))
    (hempty : b = [] → m' = m) (rest : Bytes) :
    parseMessage depth onField m (writeBytes num b ++ rest) = parseMessage depth onField m' rest := by
  unfold writeBytes
  split
  · rename_i h
    rw [hempty h, List.nil_append]
  · exact parseMessage_writeLen hnum hb hfield rest

theorem parseMessage_writeInt32 (hnum : FieldNumber num) {x : U32}
    (hfield : onField m num (.varint (x.signExtend 64).toNat) = (true, m'))
    (hzero : x = 0 → m' = m) (rest : Bytes) :
    parseMessage depth onField m (writeInt32 num x ++ rest) = parseMessage depth onField m' rest := by
  by_cases hx : x = 0
  · rw [hzero hx, writeInt32, if_pos hx, List.nil_append]
  · exact parseMessage_field (readField_writeInt32 hnum hx rest) hfield

/-- The entries of a list are appended one after the other to the message
`list` makes of them. -/
theorem parseMessage_flatMap {α : Type} (hnum : FieldNumber num)
    (list : List α → μ) {write : α → Bytes} {xs : List α}
    (hsize : ∀ x ∈ xs, (write x).length ≤ maxSize)
    (hfield : ∀ done, ∀ x ∈ xs, onField (list done) num (.len (write x)) =
      (true, list (done ++ [x]))) (done : List α) :
    parseMessage depth onField (list done) (xs.flatMap fun x => writeLen num (write x)) =
      (true, list (done ++ xs)) := by
  induction xs generalizing done with
  | nil => rw [List.flatMap_nil, parseMessage_nil, List.append_nil]
  | cons x xs ih =>
    obtain ⟨hx, hxs⟩ := List.forall_mem_cons.mp hsize
    rw [List.flatMap_cons, parseMessage_writeLen hnum hx (hfield done x List.mem_cons_self),
      ih hxs (fun done y hy => hfield done y (List.mem_cons_of_mem x hy)), List.append_assoc,
      List.singleton_append]

end

theorem length_le_writeLen (num : Nat) (b : Bytes) : b.length ≤ (writeLen num b).length := by
  simp only [writeLen, List.length_append]
  omega

theorem length_le_writeBytes (num : Nat) (b : Bytes) : b.length ≤ (writeBytes num b).length := by
  unfold writeBytes
  split
  · rename_i h
    rw [h]
  · exact length_le_writeLen num b

theorem length_le_flatMap {α : Type} (num : Nat) (write : α → Bytes) {xs : List α} {x : α}
    (hx : x ∈ xs) :
    (write x).length ≤ (xs.flatMap fun x => writeLen num (write x)).length := by
  obtain ⟨before, after, rfl⟩ := List.append_of_mem hx
  have hle := length_le_writeLen num (write x)
  simp only [List.flatMap_append, List.flatMap_cons, List.length_append]
  omega

end Cpe.Lib.ProtoWire
